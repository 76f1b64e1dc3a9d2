import EscapedText.Failure

/-!
Events that a translator reports beside its answers, each with the place it knows.
-/
namespace EscapedText

inductive Level where
  | error | warn | info | debug | trace
deriving DecidableEq

inductive Event where
  | malformed (position : Position) (defect : Defect)
  | decoded (c : Char) (position : Position)
  | closing (position : Position)
deriving DecidableEq

namespace Level

def name : Level → String
  | .error => "ERROR"
  | .warn => "WARN"
  | .info => "INFO"
  | .debug => "DEBUG"
  | .trace => "TRACE"

/-- Higher is chattier. -/
def rank : Level → Nat
  | .error => 1
  | .warn => 2
  | .info => 3
  | .debug => 4
  | .trace => 5

end Level

namespace Event

def level : Event → Level
  | .malformed _ _ => .warn
  | .decoded _ _ => .trace
  | .closing _ => .debug

def message : Event → String
  | .malformed _ _ => "malformed unicode escape"
  | .decoded _ _ => "translated unicode escape"
  | .closing _ => "closing unicode escape reader"

/-- Names and values in the order they are written. -/
def fields : Event → List (String × String)
  | .malformed p d => [("position", p.text), ("reason", d.message)]
  | .decoded c p => [("decoded", Quoted.char c), ("position", p.text)]
  | .closing p => [("position", p.text)]

end Event
end EscapedText
