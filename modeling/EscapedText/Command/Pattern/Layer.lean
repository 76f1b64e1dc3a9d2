import EscapedText.Command.Pattern.Switches

/-!
How deep a pattern nests. A group and a set nest their content once, so does a repetition; a row
of several parts, a choice between rows and an operation on sets nest theirs once more.
-/
namespace EscapedText.Pattern

/-- Parts that stand one after another. -/
structure Row where
  count : Nat := 0
  tallest : Nat := 0
deriving DecidableEq

def Row.push (r : Row) (height : Nat) : Row := ⟨r.count + 1, max r.tallest height⟩

def Row.height (r : Row) : Nat := if r.count ≤ 1 then r.tallest else r.tallest + 1

/-- An open group, or the whole pattern. `last` is the height of the last part if that can be
repeated, and `earlier` the height of the rows in front of the last bar. -/
structure Layer where
  switches : Switches := {}
  row : Row := {}
  last : Option Nat := none
  earlier : Option Nat := none
deriving DecidableEq

namespace Layer

def push (l : Layer) (height : Nat) : Layer :=
  { l with row := l.row.push height, last := some height }

/-- Switches take a place in the row, but nobody can repeat them. -/
def turn (l : Layer) (cs : List Char) : Layer :=
  { l with switches := l.switches.turn cs, row := l.row.push 0, last := none }

/-- Repeats the last part. -/
def repeated? (l : Layer) : Option Layer :=
  l.last.map fun h =>
    { l with row := { l.row with tallest := max l.row.tallest (h + 1) }, last := some (h + 1) }

/-- Begins another row behind a bar. -/
def branch (l : Layer) : Layer :=
  { l with row := {}, last := none, earlier := some (max (l.earlier.getD 0) l.row.height) }

def height (l : Layer) : Nat :=
  match l.earlier with
  | none => l.row.height
  | some h => max h l.row.height + 1

end Layer

/-- An open set: what stands to the left of its last operation, and the row behind that. -/
structure SetLayer where
  left : Option Nat := none
  row : Row := {}
deriving DecidableEq

namespace SetLayer

def push (s : SetLayer) (height : Nat) : SetLayer := { s with row := s.row.push height }

def height (s : SetLayer) : Nat :=
  match s.left with
  | none => s.row.height
  | some h => max h s.row.height + 1

/-- Makes all that was read the left side of another operation. -/
def operate (s : SetLayer) : SetLayer := { left := some s.height }

end SetLayer
end EscapedText.Pattern
