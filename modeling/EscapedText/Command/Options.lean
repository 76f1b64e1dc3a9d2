/-!
The options of the command, when its arguments have been read.
-/
namespace EscapedText

/-- A path as the system takes it: any bytes. -/
abbrev Path := List UInt8

structure Options where
  input : Option Path := none
  output : Option Path := none
  check : Bool := false
  verbosity : Nat := 0
deriving DecidableEq

/-- The name of the standard input: a lone dash. -/
def Options.dash : Path := [0x2D]

/-- The file to read, if it is not the standard input. -/
def Options.file? (o : Options) : Option Path := o.input.filter (· ≠ dash)

def Options.checking (o : Options) : Options := { o with check := true }

/-- How the command ends when its arguments leave nothing to run: by its exit code, with a text for
the standard output and one for the standard error. -/
structure Ending where
  code : Nat
  output : List UInt8 := []
  notice : List UInt8 := []
deriving DecidableEq

/-- Lines as bytes, each with its end. -/
def textBytes (lines : List String) : List UInt8 :=
  lines.flatMap fun l => l.toUTF8.toList ++ [0x0A]

end EscapedText
