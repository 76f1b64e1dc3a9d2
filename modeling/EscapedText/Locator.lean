import EscapedText.Bookmark

/-!
A locator says which place a refusal cites. It may look at the bookmarks and at how often it
has been asked before, and at nothing else.
-/
namespace EscapedText

structure Locator where
  answer : Bookmarks → Nat → Position
  asked : Nat := 0

namespace Locator

def fixed (p : Position) : Locator := ⟨fun _ _ => p, 0⟩

def bookmark (m : Bookmark) : Locator := ⟨fun b _ => b.get m, 0⟩

/-- The place now, and the locator after the question. -/
def consult (l : Locator) (b : Bookmarks) : Position × Locator :=
  (l.answer b l.asked, ⟨l.answer, l.asked + 1⟩)

end Locator
end EscapedText
