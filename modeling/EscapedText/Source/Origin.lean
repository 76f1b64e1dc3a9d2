import EscapedText.Source.Bytes
import EscapedText.Source.Script
import EscapedText.Source.Text

/-! Where raw characters come from, when a program chooses as it runs. -/
namespace EscapedText

inductive Origin where
  | text (s : TextSource)
  | bytes (s : ByteSource)
  | script (s : Script)

namespace Origin

def next (b : Bookmarks) : Origin → Turn Origin (Except Fault Item)
  | text s => let turn := Source.next b s; ⟨turn.answer, text turn.state, turn.events⟩
  | bytes s => let turn := Source.next b s; ⟨turn.answer, bytes turn.state, turn.events⟩
  | script s => let turn := Source.next b s; ⟨turn.answer, script turn.state, turn.events⟩

def close : Origin → Turn Origin (Except Fault Unit)
  | text s => let turn := Source.close s; ⟨turn.answer, text turn.state, turn.events⟩
  | bytes s => let turn := Source.close s; ⟨turn.answer, bytes turn.state, turn.events⟩
  | script s => let turn := Source.close s; ⟨turn.answer, script turn.state, turn.events⟩

def size : Origin → Nat
  | text s => Source.size s
  | bytes s => Source.size s
  | script s => Source.size s

end Origin

instance : Source Origin where
  next := Origin.next
  close := Origin.close
  size := Origin.size
  size_next_le b s := by
    cases s <;> exact Source.size_next_le b _
  size_next_lt b s h := by
    cases s <;> exact Source.size_next_lt b _ h

end EscapedText
