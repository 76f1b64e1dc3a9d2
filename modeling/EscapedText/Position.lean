/-!
Places in a text. Lines and columns count from one, offsets count bytes of UTF-8 from zero.
The three move together, one character at a time; a newline opens the next line.
-/
namespace EscapedText

structure Position where
  line : Nat
  column : Nat
  offset : Nat
deriving DecidableEq

namespace Position

/-- The place before the first character. -/
def start : Position := ⟨1, 1, 0⟩

instance : Inhabited Position := ⟨start⟩

def advance (p : Position) (c : Char) : Position :=
  if c = '\n' then ⟨p.line + 1, 1, p.offset + c.utf8Size⟩
  else ⟨p.line, p.column + 1, p.offset + c.utf8Size⟩

/-- The place after all of `cs`. -/
def past (p : Position) (cs : List Char) : Position := cs.foldl advance p

/-- Line and column, the form a reader looks up. -/
def text (p : Position) : String := s!"{p.line}:{p.column}"

theorem past_cons (p : Position) (c : Char) (cs : List Char) :
    p.past (c :: cs) = (p.advance c).past cs := rfl

theorem past_append (p : Position) (cs ds : List Char) :
    p.past (cs ++ ds) = (p.past cs).past ds := List.foldl_append

theorem advance_offset (p : Position) (c : Char) :
    (p.advance c).offset = p.offset + c.utf8Size := by
  unfold advance
  split <;> rfl

end Position
end EscapedText
