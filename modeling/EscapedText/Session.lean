import EscapedText.Translator.Bulk

/-!
A consumer's dealings with a translator: requests in order, and moves of bookmarks between them.
-/
namespace EscapedText

inductive Bookmarks.Move where
  | set (p : Position)
  | advance (c : Char)
  | reset
deriving DecidableEq

def Bookmarks.move (b : Bookmarks) (m : Bookmark) : Move → Bookmarks
  | .set p => b.set m p
  | .advance c => b.advance m c
  | .reset => b.reset m

/-- A run or a single read may be followed by a bookmark. -/
inductive Request where
  | read (follow : Option Bookmark)
  | drain (limit : Nat) (follow : Option Bookmark)
  | readItem
  | readInto (buffer : List Char)
  | readAll (out : String)
  | iterate (steps : Nat)
  | close
  | locate (l : Locator)
  | move (m : Bookmark) (move : Bookmarks.Move)

inductive Reply where
  | read (answer : Except Failure Item)
  | drained (answers : List (Except Failure Item))
  | readItem (answer : Except Fault Item)
  | readInto (answer : Except Failure (Option Nat)) (buffer : List Char)
  | readAll (answer : Except Failure Nat) (out : String)
  | iterated (steps : List (Option (Except Failure Char)))
  | closed (answer : Except Failure Unit)
  | done

structure Session (σ : Type) where
  bookmarks : Bookmarks
  translator : Translator σ

namespace Session

variable {σ : Type}

/-- The session after a turn that moved no bookmark. -/
def after {α : Type} (s : Session σ) (turn : Turn (Translator σ) α) (reply : α → Reply) :
    Turn (Session σ) Reply :=
  ⟨reply turn.answer, ⟨s.bookmarks, turn.state⟩, turn.events⟩

variable [Source σ]

def perform (s : Session σ) : Request → Turn (Session σ) Reply
  | .read follow =>
    let turn := s.translator.next s.bookmarks
    ⟨.read turn.answer, ⟨Run.track follow s.bookmarks turn.answer, turn.state⟩, turn.events⟩
  | .drain limit follow =>
    let r := s.translator.run s.bookmarks Failure.isMalformed follow limit
    ⟨.drained r.answers.toList, ⟨r.bookmarks, r.state⟩, r.events⟩
  | .readItem => s.after (s.translator.nextItem s.bookmarks) .readItem
  | .readInto buffer =>
    s.after (s.translator.readInto s.bookmarks buffer) fun a => .readInto a.1 a.2
  | .readAll out => s.after (s.translator.readAll s.bookmarks out) fun a => .readAll a.1 a.2
  | .iterate n => s.after (s.translator.iterate s.bookmarks n) .iterated
  | .close => s.after s.translator.close .closed
  | .locate l => ⟨.done, ⟨s.bookmarks, s.translator.locatedBy l⟩, #[]⟩
  | .move m move => ⟨.done, ⟨s.bookmarks.move m move, s.translator⟩, #[]⟩

end Session
end EscapedText
