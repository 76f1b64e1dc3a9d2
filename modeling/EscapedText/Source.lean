import EscapedText.Event
import EscapedText.Bookmark

/-!
Sources of characters. A source answers one item at a time and can be closed. It may look at the
bookmarks, because a translator in it may cite them, and it may report events.

Sources are finite: `size` bounds the characters still to come, and a fault that asks for another
try counts as progress, so a loop over characters and retries ends by `size`.
-/
namespace EscapedText

/-- What one call gives: its answer, the state after it, the events on the way. -/
structure Turn (σ α : Type) where
  answer : α
  state : σ
  events : Array Event := #[]

/-- The answers after which a finite source must have become smaller. -/
def Advances : Except Fault Item → Prop
  | .ok (.char _) => True
  | .ok .ended => False
  | .error f => f.kind = .interrupted

class Source (σ : Type) where
  next : Bookmarks → σ → Turn σ (Except Fault Item)
  close : σ → Turn σ (Except Fault Unit)
  size : σ → Nat
  size_next_le (b : Bookmarks) (s : σ) : size (next b s).state ≤ size s
  size_next_lt (b : Bookmarks) (s : σ) (h : Advances (next b s).answer) :
    size (next b s).state < size s

theorem Source.size_next_add {σ : Type} [Source σ] {b : Bookmarks} {s : σ} {i : Item}
    (h : (next b s).answer = .ok i) : size (next b s).state + i.weight ≤ size s := by
  cases i with
  | char c => exact size_next_lt b s (by rw [h]; trivial)
  | ended => exact size_next_le b s

end EscapedText
