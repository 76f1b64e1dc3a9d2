/-!
Switches inside a pattern, and the atoms that they let through. Patterns are matched on UTF-8 and
know no tables of characters. So an atom that needs a table is refused where whole characters are
matched, and one that could match a part of a character is refused where bytes are.
-/
namespace EscapedText.Pattern

structure Switches where
  caseless : Bool := false
  unicode : Bool := true
  /-- Blanks and comments between the signs are skipped. -/
  spaced : Bool := false
deriving DecidableEq

/-- `group` is one of the groups of digits, blanks and words. A character may be written as the
number of a byte. -/
inductive Atom where
  | char (c : Char) (isByte : Bool)
  | any
  | group (negated : Bool)
  | edge
  | wordEdge
deriving DecidableEq

/-- The atom behind a backslash, numbers apart. What is neither a letter nor a digit stands for
itself. -/
def Atom.escaped? (c : Char) : Option Atom :=
  match c with
  | 'd' | 's' | 'w' => some (.group false)
  | 'D' | 'S' | 'W' => some (.group true)
  | 'A' | 'z' => some .edge
  | 'b' | 'B' | '<' | '>' => some .wordEdge
  | 'a' => some (.char '\x07' false)
  | 'f' => some (.char '\x0c' false)
  | 't' => some (.char '\t' false)
  | 'n' => some (.char '\n' false)
  | 'r' => some (.char '\r' false)
  | 'v' => some (.char '\x0b' false)
  | c => if c.toNat < 0x80 && !c.isAlphanum then some (.char c false) else none

namespace Switches

def letters : List Char := ['i', 'm', 's', 'U', 'u', 'R', 'x']

/-- Letters in front of a dash are switched on and those behind it off. -/
def turn (s : Switches) (cs : List Char) : Switches :=
  let on := cs.takeWhile (· ≠ '-')
  let off := cs.dropWhile (· ≠ '-')
  let value := fun (letter : Char) (before : Bool) =>
    on.contains letter || (before && !off.contains letter)
  ⟨value 'i' s.caseless, value 'u' s.unicode, value 'x' s.spaced⟩

/-- Ignoring the case of whole characters needs a table. -/
def folds (s : Switches) : Bool := s.caseless && s.unicode

def allows (s : Switches) : Atom → Bool
  | .char c isByte => !s.folds && (s.unicode || !isByte || c.toNat < 0x80)
  | .any => s.unicode
  | .group negated => !s.unicode && !negated
  | .edge => true
  | .wordEdge => !s.unicode

/-- A set holds characters and groups; a set of bytes holds no byte of a longer character. -/
def allowsInSet (s : Switches) : Atom → Bool
  | .char c _ => !s.folds && (s.unicode || c.toNat < 0x80)
  | .group negated => !s.unicode && !negated
  | _ => false

/-- Groups called by name are known without tables. -/
def allowsNamed (s : Switches) (negated : Bool) : Bool :=
  !s.folds && (s.unicode || !negated)

end Switches
end EscapedText.Pattern
