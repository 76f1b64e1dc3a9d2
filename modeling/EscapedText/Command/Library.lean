import EscapedText.Command.LogRecord
import EscapedText.Command.Options

/-!
What the command leaves to libraries: how its arguments are read, which records of the log are let
through, and how a path is shown. Nothing is known about any of it but what a statement says.
-/
namespace EscapedText

/-- What becomes of a log filter that the surroundings set. The reading of it may break off. -/
inductive Setup where
  | filter (enables : LogRecord → Bool)
  | refused
  | brokenOff

structure Library (Args Setting : Type) where
  parse : Args → Except Ending Options
  readFilter : Setting → Setup
  filterOf : String → LogRecord → Bool
  display : Path → String

namespace Library

variable {Args Setting : Type}

/-- How the input is called in messages. -/
def nameOf (lib : Library Args Setting) (o : Options) : String :=
  match o.file? with
  | none => "<stdin>"
  | some path => lib.display path

/-- The directive that a verbosity stands for. -/
def directive : Nat → String
  | 0 => "warn"
  | 1 => "debug"
  | _ => "trace"

/-- The filter that the surroundings set, or else the one that is asked for; none if the reading
breaks off. -/
def filter? (lib : Library Args Setting) (setting : Setting) (verbosity : Nat) :
    Option (LogRecord → Bool) :=
  match lib.readFilter setting with
  | .filter enables => some enables
  | .refused => some (lib.filterOf (directive verbosity))
  | .brokenOff => none

end Library
end EscapedText
