import EscapedText.Proofs.Preservation
import EscapedText.Proofs.Reading
import Mathlib.Data.List.Basic

/-!
Ways of reading. Single reads, buffers, whole texts and iterators may follow one another in any
order: each takes the results of single reads from where the one before has stopped, stops by a rule
of its own, and makes its reply of what it has taken. So no result is skipped, and none is taken
twice.
-/
namespace EscapedText

inductive Reading where
  | one
  | item
  | into (buffer : List Char)
  | all (out : String)
  | steps (n : Nat)

def Reading.request : Reading → Request
  | one => .read none
  | item => .readItem
  | into buffer => .readInto buffer
  | all out => .readAll out
  | steps n => .iterate n

/-- The results that a run of `n` reads at most can take. One that it does not read past is the last
of them. -/
inductive Run.Stretch (past : Failure → Bool) : Nat → List (Except Failure Item) → Prop where
  | full : Stretch past 0 []
  | more {n : Nat} {a : Except Failure Item} {as : List (Except Failure Item)}
    (on : readsOn past a = true) (later : Stretch past n as) : Stretch past (n + 1) (a :: as)
  | last {n : Nat} {a : Except Failure Item} (off : readsOn past a = false) :
    Stretch past (n + 1) [a]

/-- The steps of an iterator, which has finished or not. A step takes one result, and finishes with
the end of the input or a failure other than a malformed escape; then there is nothing more. -/
inductive Steps : Bool → Nat → List (Except Failure Item) →
    List (Option (Except Failure Char)) → Prop where
  | rest (finished : Bool) : Steps finished 0 [] []
  | idle {n : Nat} {steps : List (Option (Except Failure Char))} (later : Steps true n [] steps) :
    Steps true (n + 1) [] (none :: steps)
  | took {n : Nat} (a : Except Failure Item) {as : List (Except Failure Item)}
    {steps : List (Option (Except Failure Char))}
    (later : Steps (!Run.readsOn Failure.isMalformed a) n as steps) :
    Steps false (n + 1) (a :: as) (Translator.step? a :: steps)

open Translator (answers)

/-- What a way of reading takes, and the reply that it makes of it. -/
inductive Takes : Reading → List (Except Failure Item) → Reply → Prop where
  | one (a : Except Failure Item) : Takes .one [a] (.read a)
  | item (a : Except Failure Item) : Takes .item [a] (.readItem (Failure.passOn a))
  | intoFull {buffer cs : List Char} (fits : cs.length = buffer.length) :
    Takes (.into buffer) (answers cs) (.readInto (.ok (some cs.length)) cs)
  | intoEnded {buffer cs : List Char} (short : cs.length < buffer.length) :
    Takes (.into buffer) (answers cs ++ [.ok .ended])
      (.readInto (.ok (if cs = [] then none else some cs.length)) (cs ++ buffer.drop cs.length))
  | intoFailed {buffer cs : List Char} (short : cs.length < buffer.length) (f : Failure) :
    Takes (.into buffer) (answers cs ++ [.error f])
      (.readInto (.error f) (cs ++ buffer.drop cs.length))
  | allEnded (out : String) (cs : List Char) :
    Takes (.all out) (answers cs ++ [.ok .ended])
      (.readAll (.ok cs.length) (out ++ String.ofList cs))
  | allFailed (out : String) (cs : List Char) (f : Failure) :
    Takes (.all out) (answers cs ++ [.error f]) (.readAll (.error f) (out ++ String.ofList cs))
  | steps {n : Nat} {as : List (Except Failure Item)}
    {steps : List (Option (Except Failure Char))} (h : Steps false n as steps) :
    Takes (.steps n) as (.iterated steps)

/-- One stretch for each reading, and one reply. -/
inductive AllTake : List Reading → List (List (Except Failure Item)) → List Reply → Prop where
  | nil : AllTake [] [] []
  | cons {q : Reading} {as : List (Except Failure Item)} {reply : Reply} {qs : List Reading}
    {stretches : List (List (Except Failure Item))} {replies : List Reply}
    (first : Takes q as reply) (later : AllTake qs stretches replies) :
    AllTake (q :: qs) (as :: stretches) (reply :: replies)

namespace Run

variable {past : Failure → Bool} {n : Nat} {as : List (Except Failure Item)}

/-- A run that reads past nothing takes characters, and perhaps one other result behind them. -/
theorem Stretch.parts (h : Stretch Translator.never n as) :
    (∃ cs, as = Translator.answers cs ∧ cs.length = n) ∨
      ∃ cs last, as = Translator.answers cs ++ [last] ∧ cs.length < n ∧
        ∀ c, last ≠ .ok (.char c) := by
  induction h with
  | full => exact .inl ⟨[], rfl, rfl⟩
  | @more n a as on later ih =>
    obtain ⟨c, rfl⟩ : ∃ c, a = .ok (.char c) := by
      by_contra other
      have off := readsOn_never fun c h => other ⟨c, h⟩
      simp [off] at on
    rcases ih with ⟨cs, rfl, length⟩ | ⟨cs, last, rfl, short, other⟩
    · exact .inl ⟨c :: cs, rfl, congrArg (· + 1) length⟩
    · exact .inr ⟨c :: cs, last, rfl, Nat.succ_lt_succ short, other⟩
  | @last n a off =>
    refine .inr ⟨[], a, rfl, Nat.succ_pos n, ?_⟩
    rintro c rfl
    contradiction

theorem steps_finished (n : Nat) : Steps true n [] (List.replicate n none) := by
  induction n with
  | zero => exact .rest true
  | succ n ih => exact .idle ih

theorem Stretch.steps (h : Stretch Failure.isMalformed n as) :
    Steps false n as (as.map Translator.step? ++ List.replicate (n - as.length) none) := by
  induction h with
  | full => exact .rest false
  | @more n a as on later ih =>
    have same : n + 1 - (a :: as).length = n - as.length := by simp
    rw [same]
    exact .took a (by simpa [on] using ih)
  | @last n a off => exact .took a (by simpa [off] using steps_finished n)

variable {σ : Type}

theorem chars_of_answers {r : Run σ Failure} {cs : List Char}
    (h : r.answers.toList = Translator.answers cs) : r.chars = cs.toArray := by
  have same : r.answers = (Translator.answers cs).toArray := Array.toList_inj.mp h
  simp [chars, same, Translator.filterMap_answers]

/-- A run that only used up its reads has not been stopped. -/
theorem stop?_of_answers {r : Run σ Failure} {cs : List Char}
    (h : r.answers.toList = Translator.answers cs) : r.stop? = none := by
  have same : r.answers = (Translator.answers cs).toArray := Array.toList_inj.mp h
  rcases List.eq_nil_or_concat cs with rfl | ⟨cs, c, rfl⟩
  · simp [stop?, same, Translator.answers]
  · simp [stop?, same, Translator.answers]

variable [Source σ]

/-- A run takes the results of single reads, and stands where they lead. -/
theorem extend_takes (past : Failure → Bool) (n : Nat) (r : Run (Translator σ) Failure) :
    ∃ as, (extend Translator.next past none n r).answers.toList = r.answers.toList ++ as ∧
      Stretch past n as ∧ r.state.reads (List.replicate as.length r.bookmarks) =
        (as, (extend Translator.next past none n r).state) := by
  induction n generalizing r with
  | zero => exact ⟨[], by simp [extend], .full, rfl⟩
  | succ n ih =>
    let turn := r.state.next r.bookmarks
    have still : (r.push none turn).bookmarks = r.bookmarks := track_none r.bookmarks turn.answer
    cases on : readsOn past turn.answer with
    | true =>
      have goes : extend Translator.next past none (n + 1) r =
          extend Translator.next past none n (r.push none turn) := by
        simp only [extend, turn, on, if_true]
      obtain ⟨as, taken, stretch, reads⟩ := ih (r.push none turn)
      have later : turn.state.reads (List.replicate as.length r.bookmarks) = _ := still ▸ reads
      refine ⟨turn.answer :: as, ?_, .more on stretch, ?_⟩
      · rw [goes, taken]
        simp [push]
      · simp only [goes, List.length_cons, List.replicate_succ, Translator.reads]
        simp only [turn] at later
        simp only [later, turn]
    | false =>
      have stops : extend Translator.next past none (n + 1) r = r.push none turn := by
        simp [extend, turn, on]
      refine ⟨[turn.answer], ?_, .last on, ?_⟩
      · simp [stops, push]
      · rw [stops]
        rfl

end Run

namespace Translator

variable {σ : Type} [Source σ] (b : Bookmarks) (t : Translator σ)

theorem run_takes (past : Failure → Bool) (n : Nat) :
    ∃ as, (t.run b past none n).answers.toList = as ∧ Run.Stretch past n as ∧
      t.reads (List.replicate as.length b) = (as, (t.run b past none n).state) := by
  obtain ⟨as, taken, stretch, reads⟩ := Run.extend_takes past n (.start b t)
  exact ⟨as, taken, stretch, reads⟩

theorem readInto_takes (buffer : List Char) :
    ∃ as, Takes (.into buffer) as
        (.readInto (t.readInto b buffer).answer.1 (t.readInto b buffer).answer.2) ∧
      t.reads (List.replicate as.length b) = (as, (t.readInto b buffer).state) := by
  obtain ⟨as, taken, stretch, reads⟩ := run_takes b t never buffer.length
  refine ⟨as, ?_, reads⟩
  rcases stretch.parts with ⟨cs, rfl, fits⟩ | ⟨cs, last, rfl, short, other⟩
  · have chars := Run.chars_of_answers taken
    have stop := Run.stop?_of_answers taken
    have none : buffer.drop cs.length = [] := by simp [fits]
    simp only [readInto, chars, stop, List.size_toArray, none, List.append_nil]
    exact .intoFull fits
  · have pushed : (t.run b never Option.none buffer.length).answers =
        (answers cs).toArray.push last := by
      apply Array.toList_inj.mp
      simp [taken]
    have chars := chars_push _ pushed other
    have stop := Run.stop?_push _ pushed other
    simp only [readInto, chars, stop, List.size_toArray]
    cases last with
    | error f => exact .intoFailed short f
    | ok i =>
      cases i with
      | char c => exact absurd rfl (other c)
      | ended =>
        have count : (if cs.toArray.isEmpty then none else some cs.length) =
            if cs = [] then none else some cs.length := by simp
        simp only [Except.map, count]
        exact .intoEnded short

theorem readAll_takes (out : String) :
    ∃ as, Takes (.all out) as (.readAll (t.readAll b out).answer.1 (t.readAll b out).answer.2) ∧
      t.reads (List.replicate as.length b) = (as, (t.readAll b out).state) := by
  obtain ⟨cs, u, yields, stop⟩ := exists_yields b t
  have state : (t.readAll b out).state = (u.next b).state := (runAll_of_yields yields stop).2
  refine ⟨answers cs ++ [(u.next b).answer], ?_, ?_⟩
  · rw [readAll_of_yields yields stop]
    cases last : (u.next b).answer with
    | error f => exact .allFailed out cs f
    | ok i =>
      cases i with
      | char c => exact absurd last (stop c)
      | ended => exact .allEnded out cs
  · have first : t.reads (List.replicate cs.length b) = (answers cs, u) := yields
    rw [List.length_append, length_answers, ← List.replicate_append_replicate, reads_append, first,
      state]
    rfl

theorem iterate_takes (n : Nat) :
    ∃ as, Takes (.steps n) as (.iterated (t.iterate b n).answer) ∧
      t.reads (List.replicate as.length b) = (as, (t.iterate b n).state) := by
  obtain ⟨as, taken, stretch, reads⟩ := run_takes b t Failure.isMalformed n
  refine ⟨as, .steps ?_, reads⟩
  have size : (t.run b Failure.isMalformed none n).answers.size = as.length := by
    rw [← taken, Array.length_toList]
  simp only [iterate, taken, size]
  exact stretch.steps

end Translator

namespace Session

variable {σ : Type} [Source σ]

theorem perform_takes (s : Session σ) (q : Reading) :
    ∃ as, Takes q as (s.perform q.request).answer ∧
      s.translator.reads (List.replicate as.length s.bookmarks) =
        (as, (s.perform q.request).state.translator) ∧
      (s.perform q.request).state.bookmarks = s.bookmarks := by
  cases q with
  | one => exact ⟨[_], .one _, rfl, Run.track_none _ _⟩
  | item => exact ⟨[_], .item _, rfl, rfl⟩
  | into buffer =>
    obtain ⟨as, takes, reads⟩ := s.translator.readInto_takes s.bookmarks buffer
    exact ⟨as, takes, reads, rfl⟩
  | all out =>
    obtain ⟨as, takes, reads⟩ := s.translator.readAll_takes s.bookmarks out
    exact ⟨as, takes, reads, rfl⟩
  | steps n =>
    obtain ⟨as, takes, reads⟩ := s.translator.iterate_takes s.bookmarks n
    exact ⟨as, takes, reads, rfl⟩

/-- Whatever ways of reading follow one another, the stretches that they take join up to the results
of single reads, from the first on, and they leave the translator where those reads would. -/
theorem performs_take_in_turn (s : Session σ) (qs : List Reading) :
    ∃ stretches, AllTake qs stretches (s.performs (qs.map Reading.request)).1 ∧
      s.translator.reads (List.replicate stretches.flatten.length s.bookmarks) =
        (stretches.flatten, (s.performs (qs.map Reading.request)).2.translator) ∧
      (s.performs (qs.map Reading.request)).2.bookmarks = s.bookmarks := by
  induction qs generalizing s with
  | nil => exact ⟨[], .nil, rfl, rfl⟩
  | cons q qs ih =>
    obtain ⟨as, takes, reads, still⟩ := perform_takes s q
    obtain ⟨stretches, all, later, same⟩ := ih (s.perform q.request).state
    rw [still] at later
    refine ⟨as :: stretches, .cons takes all, ?_, same.trans still⟩
    rw [List.flatten_cons, List.length_append, ← List.replicate_append_replicate,
      Translator.reads_append, reads, later]
    rfl

end Session
end EscapedText
