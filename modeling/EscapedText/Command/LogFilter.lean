import EscapedText.Command.Directive

/-!
Which records are logged. A filter is a list of directives. Among the directives that speak about
a record the most specific one decides, and of two alike the later.
-/
namespace EscapedText

structure LogFilter where
  directives : List Directive
deriving DecidableEq

namespace LogFilter

def upTo (level : Level) : LogFilter := ⟨[{ level := level.rank }]⟩

/-- Directives stand between commas. Without any, errors alone are logged. -/
def parse (s : String) : Except Directive.Defect LogFilter :=
  match ((s.toList.splitOn ',').filter (· ≠ [])).mapM Directive.parse with
  | .error e => .error e
  | .ok [] => .ok (upTo .error)
  | .ok ds => .ok ⟨ds⟩

/-- The directive that decides about a record. -/
def deciding? (f : LogFilter) (r : LogRecord) : Option Directive :=
  (f.directives.filter (·.caresAbout r)).foldl (fun best d =>
    match best with
    | none => some d
    | some e => if d.atLeast e then some d else some e) none

def enables (f : LogFilter) (r : LogRecord) : Bool :=
  match f.deciding? r with
  | none => false
  | some d => r.level.rank ≤ d.level

end LogFilter
end EscapedText
