import EscapedText.Proofs.Preservation
import EscapedText.Proofs.Reading

/-!
What requests come to. Each of them is single reads one after another, with the moves of a follower
between them, or a closing, a locator attached, a bookmark moved. So a session has a history of such
acts, and what every act keeps holds behind every request.
-/
namespace EscapedText

/-- A single thing done. A read comes with the answer it was given. -/
inductive Act where
  | read (answer : Except Failure Item)
  | close
  | locate (l : Locator)
  | move (m : Bookmark) (move : Bookmarks.Move)

namespace Act

/-- A read that was answered `a`, and what its follower does then. -/
def behind (follow : Option Bookmark) (a : Except Failure Item) : List Act :=
  .read a :: match follow, a with
    | some m, .ok (.char c) => [.move m (.advance c)]
    | _, _ => []

def reads (follow : Option Bookmark) (as : List (Except Failure Item)) : List Act :=
  as.flatMap (behind follow)

def answer? : Act → Option (Except Failure Item)
  | .read a => some a
  | _ => none

theorem answers_behind (follow : Option Bookmark) (a : Except Failure Item) :
    (behind follow a).filterMap answer? = [a] := by
  unfold behind
  split <;> rfl

theorem answers_reads (follow : Option Bookmark) (as : List (Except Failure Item)) :
    (reads follow as).filterMap answer? = as := by
  induction as with
  | nil => rfl
  | cons a as ih =>
    rw [reads, List.flatMap_cons, List.filterMap_append, answers_behind]
    exact congrArg (a :: ·) ih

end Act

/-- Where a run stands. -/
def Run.session {σ : Type} (r : Run (Translator σ) Failure) : Session σ := ⟨r.bookmarks, r.state⟩

namespace Session

variable {σ : Type} [Source σ]

def act (s : Session σ) : Act → Session σ
  | .read _ => ⟨s.bookmarks, (s.translator.next s.bookmarks).state⟩
  | .close => ⟨s.bookmarks, s.translator.close.state⟩
  | .locate l => ⟨s.bookmarks, s.translator.locatedBy l⟩
  | .move m move => ⟨s.bookmarks.move m move, s.translator⟩

def enact (s : Session σ) (h : List Act) : Session σ := h.foldl act s

/-- A read is given the answer that it comes with. -/
def Gives (s : Session σ) : Act → Prop
  | .read a => (s.translator.next s.bookmarks).answer = a
  | _ => True

/-- All reads of `h` are given the answers that they come with. -/
def Tells (s : Session σ) : List Act → Prop
  | [] => True
  | a :: h => s.Gives a ∧ (s.act a).Tells h

/-- The acts that a request comes to. -/
def acts (s : Session σ) : Request → List Act
  | .read follow => Act.behind follow (s.translator.next s.bookmarks).answer
  | .drain limit follow =>
    Act.reads follow
      (s.translator.run s.bookmarks Failure.isMalformed follow limit).answers.toList
  | .readItem => [.read (s.translator.next s.bookmarks).answer]
  | .readInto buffer =>
    Act.reads none
      (s.translator.run s.bookmarks Translator.never none buffer.length).answers.toList
  | .readAll _ => Act.reads none (s.translator.runAll s.bookmarks none).answers.toList
  | .iterate n =>
    Act.reads none (s.translator.run s.bookmarks Failure.isMalformed none n).answers.toList
  | .close => [.close]
  | .locate l => [.locate l]
  | .move m move => [.move m move]

def history (s : Session σ) : List Request → List Act
  | [] => []
  | q :: qs => s.acts q ++ (s.perform q).state.history qs

variable {s : Session σ} {g h : List Act} {a : Act}

theorem enact_append (s : Session σ) (g h : List Act) :
    s.enact (g ++ h) = (s.enact g).enact h := List.foldl_append

theorem tells_append : s.Tells (g ++ h) ↔ s.Tells g ∧ (s.enact g).Tells h := by
  induction g generalizing s with
  | nil => exact ⟨fun tells => ⟨trivial, tells⟩, And.right⟩
  | cons a g ih =>
    constructor
    · rintro ⟨gives, tells⟩
      obtain ⟨first, later⟩ := ih.mp tells
      exact ⟨⟨gives, first⟩, later⟩
    · rintro ⟨⟨gives, first⟩, later⟩
      exact ⟨gives, ih.mpr ⟨first, later⟩⟩

/-- What every act keeps, all of them keep. -/
theorem enact_keeps {P : Session σ → List Act → Prop}
    (keeps : ∀ s g a, P s g → s.Gives a → P (s.act a) (g ++ [a])) (start : P s g)
    (tells : s.Tells h) : P (s.enact h) (g ++ h) := by
  induction h generalizing s g with
  | nil =>
    rw [List.append_nil]
    exact start
  | cons a h ih =>
    obtain ⟨gives, later⟩ := tells
    have whole := ih (keeps s g a start gives) later
    rw [List.append_assoc] at whole
    exact whole

theorem behind_told (s : Session σ) (follow : Option Bookmark) :
    let turn := s.translator.next s.bookmarks
    s.enact (Act.behind follow turn.answer) =
        ⟨Run.track follow s.bookmarks turn.answer, turn.state⟩ ∧
      s.Tells (Act.behind follow turn.answer) := by
  intro turn
  obtain ⟨a, answered⟩ : ∃ a, turn.answer = a := ⟨_, rfl⟩
  have gives : s.Gives (.read a) := answered
  rw [answered]
  cases follow with
  | none =>
    rw [Run.track_none]
    exact ⟨rfl, gives, trivial⟩
  | some m =>
    cases a with
    | error f => exact ⟨rfl, gives, trivial⟩
    | ok i =>
      cases i with
      | char c => exact ⟨rfl, gives, trivial, trivial⟩
      | ended => exact ⟨rfl, gives, trivial⟩

theorem extend_told (past : Failure → Bool) (follow : Option Bookmark) (n : Nat)
    (r : Run (Translator σ) Failure) :
    ∃ as, (Run.extend Translator.next past follow n r).answers.toList = r.answers.toList ++ as ∧
      r.session.enact (Act.reads follow as) =
        (Run.extend Translator.next past follow n r).session ∧
      r.session.Tells (Act.reads follow as) := by
  induction n generalizing r with
  | zero => exact ⟨[], (List.append_nil _).symm, rfl, trivial⟩
  | succ n ih =>
    obtain ⟨state, tells⟩ := behind_told r.session follow
    let turn := r.state.next r.bookmarks
    have pushed : r.session.enact (Act.behind follow turn.answer) = (r.push follow turn).session :=
      state
    -- The answer that stops the run is told as well, behind it nothing is.
    simp only [Run.extend]
    split
    · obtain ⟨as, answers, later, told⟩ := ih (r.push follow turn)
      refine ⟨turn.answer :: as, ?_, ?_, ?_⟩
      · rw [answers]
        simp [Run.push, turn]
      · rw [Act.reads, List.flatMap_cons, enact_append, pushed]
        exact later
      · rw [Act.reads, List.flatMap_cons, tells_append, pushed]
        exact ⟨tells, told⟩
    · refine ⟨[turn.answer], ?_, ?_, ?_⟩
      · simp [Run.push, turn]
      · rw [Act.reads, List.flatMap_singleton]
        exact pushed
      · rw [Act.reads, List.flatMap_singleton]
        exact tells

theorem run_told (past : Failure → Bool) (follow : Option Bookmark) (n : Nat) (s : Session σ) :
    s.enact (Act.reads follow (s.translator.run s.bookmarks past follow n).answers.toList) =
        (s.translator.run s.bookmarks past follow n).session ∧
      s.Tells (Act.reads follow (s.translator.run s.bookmarks past follow n).answers.toList) := by
  obtain ⟨as, answers, state, tells⟩ := extend_told past follow n (.start s.bookmarks s.translator)
  have whole : (s.translator.run s.bookmarks past follow n).answers.toList = as := answers
  rw [whole]
  exact ⟨state, tells⟩

/-- Without a follower no bookmark moves. -/
theorem extend_unfollowed (past : Failure → Bool) (n : Nat) (r : Run (Translator σ) Failure) :
    (Run.extend Translator.next past none n r).bookmarks = r.bookmarks := by
  induction n generalizing r with
  | zero => rfl
  | succ n ih =>
    have still : (r.push none (r.state.next r.bookmarks)).bookmarks = r.bookmarks :=
      Run.track_none _ _
    simp only [Run.extend]
    split
    · exact (ih _).trans still
    · exact still

theorem run_unfollowed (past : Failure → Bool) (n : Nat) (s : Session σ) :
    (s.translator.run s.bookmarks past none n).session =
      ⟨s.bookmarks, (s.translator.run s.bookmarks past none n).state⟩ :=
  congrArg (Session.mk · _) (extend_unfollowed past n (.start s.bookmarks s.translator))

theorem acts_told (s : Session σ) (q : Request) :
    s.enact (s.acts q) = (s.perform q).state ∧ s.Tells (s.acts q) := by
  have unfollowed (past : Failure → Bool) (n : Nat) :
      s.enact (Act.reads none (s.translator.run s.bookmarks past none n).answers.toList) =
          ⟨s.bookmarks, (s.translator.run s.bookmarks past none n).state⟩ ∧
        s.Tells (Act.reads none (s.translator.run s.bookmarks past none n).answers.toList) := by
    rw [← run_unfollowed]
    exact run_told past none n s
  cases q with
  | read follow => exact behind_told s follow
  | drain limit follow => exact run_told Failure.isMalformed follow limit s
  | readItem => exact ⟨rfl, rfl, trivial⟩
  | readInto buffer => exact unfollowed Translator.never buffer.length
  | readAll out => exact unfollowed Translator.never (s.translator.size + 1)
  | iterate n => exact unfollowed Failure.isMalformed n
  | close | locate l | move m move => exact ⟨rfl, trivial, trivial⟩

/-- The history of a session leads where its requests lead, and gives their answers. -/
theorem history_told (s : Session σ) (qs : List Request) :
    s.enact (s.history qs) = (s.performs qs).2 ∧ s.Tells (s.history qs) := by
  induction qs generalizing s with
  | nil => exact ⟨rfl, trivial⟩
  | cons q qs ih =>
    obtain ⟨first, tells⟩ := acts_told s q
    obtain ⟨later, told⟩ := ih (s.perform q).state
    rw [history, enact_append, tells_append, first]
    exact ⟨later, tells, told⟩

end Session
end EscapedText
