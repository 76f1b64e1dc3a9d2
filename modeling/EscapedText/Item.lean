/-!
What a source answers: a character, or the end of its input.
-/
namespace EscapedText

inductive Item where
  | char (c : Char)
  | ended
deriving DecidableEq

/-- Characters in an item. -/
def Item.weight : Item → Nat
  | .char _ => 1
  | .ended => 0

end EscapedText
