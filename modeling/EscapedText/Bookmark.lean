import EscapedText.Position

/-!
Bookmarks are positions that several parties see. A bookmark is a name; the positions are kept
in one book, so whoever holds the same bookmark reads the latest move of any other holder.
-/
namespace EscapedText

structure Bookmark where
  index : Nat
deriving DecidableEq

structure Bookmarks where
  positions : List Position := []
deriving DecidableEq

namespace Bookmarks

/-- Opens a new bookmark at the start. -/
def add (b : Bookmarks) : Bookmark × Bookmarks :=
  (⟨b.positions.length⟩, ⟨b.positions ++ [.start]⟩)

def get (b : Bookmarks) (m : Bookmark) : Position := b.positions.getD m.index .start

def set (b : Bookmarks) (m : Bookmark) (p : Position) : Bookmarks :=
  ⟨b.positions.set m.index p⟩

def advance (b : Bookmarks) (m : Bookmark) (c : Char) : Bookmarks :=
  b.set m ((b.get m).advance c)

def reset (b : Bookmarks) (m : Bookmark) : Bookmarks := b.set m .start

/-- The bookmark is in the book. -/
def Holds (b : Bookmarks) (m : Bookmark) : Prop := m.index < b.positions.length

theorem get_set (b : Bookmarks) (m : Bookmark) (p : Position) (h : b.Holds m) :
    (b.set m p).get m = p := by
  simp only [get, set, List.getD_eq_getElem?_getD, List.getElem?_set_self h, Option.getD_some]

theorem get_set_of_ne (b : Bookmarks) (m n : Bookmark) (p : Position) (h : m ≠ n) :
    (b.set m p).get n = b.get n := by
  have hi : m.index ≠ n.index := fun e => h (by cases m; cases n; simpa using e)
  simp only [get, set, List.getD_eq_getElem?_getD, List.getElem?_set_ne hi]

theorem holds_set (b : Bookmarks) (m n : Bookmark) (p : Position) :
    (b.set m p).Holds n ↔ b.Holds n := by
  simp [Holds, set]

end Bookmarks
end EscapedText
