import EscapedText.Event

/-! Records of the log. -/
namespace EscapedText

structure LogRecord where
  level : Level
  target : String
  message : String
  fields : List (String × String)
deriving DecidableEq

def Event.record (e : Event) : LogRecord :=
  ⟨e.level, "escape_reader::reader", e.message, e.fields⟩

/-- All has been copied. -/
def LogRecord.finished (name : String) (count : Nat) : LogRecord :=
  ⟨.debug, "unescape", "translation finished", [("input", name), ("chars", count.repr)]⟩

end EscapedText
