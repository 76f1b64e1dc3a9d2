import EscapedText.Escape.Unit
import EscapedText.Item
import EscapedText.Position
import EscapedText.Text.Quoted

/-!
What can go wrong. A translator refuses: an escape has a defect, or the translator is closed. A
source is at fault: a device failed, or a translator further down refused. A failure is either,
and passing it on as a fault never wraps it twice.
-/
namespace EscapedText

/-- Why an escape stands for nothing: a digit was due, or a surrogate has no partner. -/
inductive Defect where
  | missingDigit (found : Item)
  | unpaired (unit : CodeUnit)
deriving DecidableEq

inductive Refusal where
  | malformed (position : Position) (defect : Defect)
  | closed
deriving DecidableEq

inductive FaultKind where
  | connectionReset | unexpectedEnd | interrupted | invalidData | other | permissionDenied
  | timedOut | wouldBlock | brokenPipe | notFound | isDirectory | notDirectory | invalidName
  | storageFull
  /-- Any other kind, by its name. -/
  | named (name : String)
deriving DecidableEq

inductive Fault where
  | device (kind : FaultKind) (message : String)
  | refused (r : Refusal)
deriving DecidableEq

inductive Failure where
  | refused (r : Refusal)
  | source (f : Fault)
deriving DecidableEq

def Item.found : Item → String
  | .char c => Quoted.char c
  | .ended => "end of input"

def Defect.message : Defect → String
  | .missingDigit i => "did not find four digit hex character code, found " ++ i.found
  | .unpaired u => "unpaired surrogate \\u" ++ CodeUnit.hex u

def Refusal.message : Refusal → String
  | .malformed p d =>
    s!"malformed unicode escape at line {p.line} column {p.column}: " ++ d.message
  | .closed => "reader is closed"

namespace Fault

/-- A refusal is bad data to whoever reads the refusing translator as a source. -/
def kind : Fault → FaultKind
  | .device k _ => k
  | .refused _ => .invalidData

def message : Fault → String
  | .device _ m => m
  | .refused r => r.message

end Fault

namespace Failure

def message : Failure → String
  | .refused r => r.message
  | .source f => f.message

def toFault : Failure → Fault
  | .refused r => .refused r
  | .source f => f

/-- An answer handed on to whoever reads the translator as a source. -/
def passOn {α : Type} : Except Failure α → Except Fault α
  | .ok a => .ok a
  | .error f => .error f.toFault

/-- An answer taken from the source. -/
def ofSource {α : Type} : Except Fault α → Except Failure α
  | .ok a => .ok a
  | .error f => .error (.source f)

def position? : Failure → Option Position
  | .refused (.malformed p _) => some p
  | _ => none

def isMalformed : Failure → Bool
  | .refused (.malformed _ _) => true
  | _ => false

theorem passOn_ofSource {α : Type} (a : Except Fault α) : passOn (ofSource a) = a := by
  cases a <;> rfl

end Failure
end EscapedText
