import EscapedText.Command.Arguments
import EscapedText.Command.Library
import EscapedText.Command.LogFilter

/-! The libraries that the command is built with. -/
namespace EscapedText

namespace LogFilter

def ofSetting : Option String → Setup
  | none => .refused
  | some setting =>
    match parse setting with
    | .ok f => .filter f.enables
    | .error .unreadable => .refused
    | .error .broken => .brokenOff

/-- The filter of a directive that the command has of its own. -/
def ofDirective (directive : String) : LogRecord → Bool :=
  match parse directive with
  | .ok f => f.enables
  | .error _ => fun _ => false

end LogFilter

/-- Arguments are texts here, so paths are UTF-8. -/
def Library.standard : Library (List String) (Option String) where
  parse := Arguments.parse
  readFilter := LogFilter.ofSetting
  filterOf := LogFilter.ofDirective
  display path := (String.fromUTF8? ⟨path.toArray⟩).getD ""

end EscapedText
