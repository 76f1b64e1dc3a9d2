import EscapedText.Counters
import EscapedText.Session
import EscapedText.Utf8

/-!
Copying. A consumer takes one character after another, moves its bookmark past each, hands it on as
UTF-8 if there is anywhere to hand it to, and counts. What it hands on to and where events go is
left to whoever copies.
-/
namespace EscapedText

/-- What cuts a copy short: its translator fails, what it hands on is lost or stays behind, or a
counter runs over in a build that breaks off there. -/
inductive Halt where
  | failed (f : Failure)
  | lost (f : Fault)
  | unflushed (f : Fault)
  | overrun
deriving DecidableEq

def handOn {m : Type → Type} [Monad m] (c : Char) :
    Option (List UInt8 → m (Except Fault Unit)) → m (Except Fault Unit)
  | none => return .ok ()
  | some write => write (Utf8.encode c)

namespace Session

variable {σ : Type} [Source σ] {m : Type → Type} [Monad m]

/-- Copies up to the first answer that is no character, or until it is cut short. `count` characters
are copied already. A build that checks need not check this count: an offset grows at least as fast
and runs over before. -/
@[specialize]
def copyFrom (build : Build) (mark : Bookmark) (log : Event → m Unit)
    (out : Option (List UInt8 → m (Except Fault Unit))) (s : Session σ)
    (count : UInt64) : m (Except Halt UInt64 × Session σ) := do
  let turn := s.translator.next s.bookmarks
  forM turn.events.toList log
  match taken : turn.answer with
  | .error f => return (.error (.failed f), ⟨s.bookmarks, turn.state⟩)
  | .ok .ended => return (.ok count, ⟨s.bookmarks, turn.state⟩)
  | .ok (.char c) =>
    match (s.bookmarks.get mark).advance? build c with
    | none => return (.error .overrun, ⟨s.bookmarks, turn.state⟩)
    | some p =>
      let next : Session σ := ⟨s.bookmarks.set mark p, turn.state⟩
      match ← handOn c out with
      | .error f => return (.error (.lost f), next)
      | .ok () =>
        have : turn.state.size < s.translator.size := Translator.size_next_lt taken
        copyFrom build mark log out next (count + 1)
termination_by s.translator.size

/-- The number of characters copied or what cut the copy short, and the session behind it. -/
def copy (build : Build) (mark : Bookmark) (log : Event → m Unit)
    (out : Option (List UInt8 → m (Except Fault Unit))) (s : Session σ) :
    m (Except Halt UInt64 × Session σ) :=
  s.copyFrom build mark log out 0

end Session
end EscapedText
