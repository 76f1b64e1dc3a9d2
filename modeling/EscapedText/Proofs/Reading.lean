import EscapedText.Translator.Bulk

/-!
Reads one after another. Whatever way of reading is chosen, the answers are those of single reads,
so those are named first. Reading all of a text is then the characters up to the first answer that
is none, and that answer decides what is reported.
-/
namespace EscapedText

namespace Run

variable {σ ε : Type} {a : Except ε Item}

theorem track_none (b : Bookmarks) (a : Except ε Item) : track none b a = b := by
  unfold track
  split <;> rfl

theorem char?_eq_none (h : ∀ c, a ≠ .ok (.char c)) : char? a = none := by
  unfold char?
  split
  · rename_i c
    exact absurd rfl (h c)
  · rfl

theorem stop?_push (r : Run σ ε) {as : Array (Except ε Item)} (hr : r.answers = as.push a)
    (h : ∀ c, a ≠ .ok (.char c)) : r.stop? = some (a.map fun _ => ()) := by
  simp only [stop?, hr, Array.back?_push]
  cases a with
  | error f => rfl
  | ok i =>
    cases i with
    | char c => exact absurd rfl (h c)
    | ended => rfl

theorem readsOn_never {a : Except Failure Item} (h : ∀ c, a ≠ .ok (.char c)) :
    readsOn Translator.never a = false := by
  unfold readsOn
  split
  · rename_i c
    exact absurd rfl (h c)
  · rfl
  · rfl

end Run

namespace Translator

variable {σ : Type} [Source σ] {b : Bookmarks} {t u : Translator σ}

theorem next_of_free (b : Bookmarks) (opened : t.closed = false) (free : t.held = none) :
    t.next b = t.scan b .fresh #[] := by
  simp [next, opened, free]

theorem next_of_held (b : Bookmarks) {i : Item} (opened : t.closed = false)
    (held : t.held = some i) : t.next b = ⟨.ok i, { t with held := none }, #[]⟩ := by
  simp [next, opened, held]

/-- What `t` answers to reads, each with the bookmarks as they stand, and `t` behind them. -/
def reads (t : Translator σ) : List Bookmarks → List (Except Failure Item) × Translator σ
  | [] => ([], t)
  | b :: bs =>
    let turn := t.next b
    let later := turn.state.reads bs
    (turn.answer :: later.1, later.2)

/-- What the same reads report. -/
def reports (t : Translator σ) : List Bookmarks → Array Event
  | [] => #[]
  | b :: bs => (t.next b).events ++ (t.next b).state.reports bs

theorem reads_append (t : Translator σ) (bs cs : List Bookmarks) :
    t.reads (bs ++ cs) =
      ((t.reads bs).1 ++ ((t.reads bs).2.reads cs).1, ((t.reads bs).2.reads cs).2) := by
  induction bs generalizing t with
  | nil => rfl
  | cons b bs ih =>
    rw [List.cons_append, reads, ih]
    rfl

def answers (cs : List Char) : List (Except Failure Item) := cs.map fun c => .ok (.char c)

/-- The next reads of `t` answer exactly `cs` and leave `u`. -/
def Yields (b : Bookmarks) (t : Translator σ) (cs : List Char) (u : Translator σ) : Prop :=
  t.reads (List.replicate cs.length b) = (answers cs, u)

theorem yields_nil (t : Translator σ) : Yields b t [] t := rfl

theorem yields_cons_iff {c : Char} {cs : List Char} :
    Yields b t (c :: cs) u ↔
      (t.next b).answer = .ok (.char c) ∧ Yields b (t.next b).state cs u := by
  simp only [Yields, answers, List.length_cons, List.replicate_succ, reads, List.map_cons,
    Prod.mk.injEq, List.cons.injEq, and_assoc]
  constructor
  · rintro ⟨ha, hl, hu⟩
    exact ⟨ha, Prod.ext hl hu⟩
  · rintro ⟨ha, h⟩
    exact ⟨ha, congrArg Prod.fst h, congrArg Prod.snd h⟩

theorem Yields.trans {v : Translator σ} {cs ds : List Char} (h : Yields b t cs u)
    (h' : Yields b u ds v) : Yields b t (cs ++ ds) v := by
  unfold Yields at h h' ⊢
  rw [List.length_append, ← List.replicate_append_replicate, reads_append, h, h']
  simp [answers]

theorem length_reads (t : Translator σ) (bs : List Bookmarks) :
    (t.reads bs).1.length = bs.length := by
  induction bs generalizing t with
  | nil => rfl
  | cons b bs ih => exact congrArg (· + 1) (ih _)

theorem length_answers (cs : List Char) : (answers cs).length = cs.length := by
  simp [answers]

theorem yields_of_reads {n : Nat} (h : t.reads (List.replicate n b) = (answers cs, u)) :
    Yields b t cs u := by
  have count := length_reads t (List.replicate n b)
  rw [h, length_answers, List.length_replicate] at count
  subst count
  exact h

theorem yields_of_reads_append {n : Nat} {a : Except Failure Item}
    (h : t.reads (List.replicate n b) = (answers cs ++ [a], u)) :
    ∃ w, Yields b t cs w ∧ (w.next b).answer = a ∧ (w.next b).state = u := by
  have count := length_reads t (List.replicate n b)
  rw [h, List.length_append, length_answers, List.length_replicate] at count
  subst count
  rw [← List.replicate_append_replicate, reads_append] at h
  obtain ⟨both, state⟩ := Prod.mk.inj h
  have size : (t.reads (List.replicate cs.length b)).1.length = (answers cs).length := by
    rw [length_reads, List.length_replicate, length_answers]
  obtain ⟨front, back⟩ := List.append_inj both size
  exact ⟨_, Prod.ext front rfl, List.head_eq_of_cons_eq back, state⟩

theorem Yields.size_le {cs : List Char} (h : Yields b t cs u) : cs.length + u.size ≤ t.size := by
  induction cs generalizing t with
  | nil =>
    cases h
    exact Nat.le_of_eq (Nat.zero_add _)
  | cons c cs ih =>
    obtain ⟨ha, hcs⟩ := yields_cons_iff.mp h
    have shrinks := size_next_lt ha
    have later := ih hcs
    rw [List.length_cons]
    omega

/-- Characters come to an end. -/
theorem exists_yields (b : Bookmarks) (t : Translator σ) :
    ∃ cs u, Yields b t cs u ∧ ∀ c, (u.next b).answer ≠ .ok (.char c) := by
  by_cases h : ∃ c, (t.next b).answer = .ok (.char c)
  · obtain ⟨c, hc⟩ := h
    have shrinks := size_next_lt hc
    obtain ⟨cs, u, hcs, stop⟩ := exists_yields b (t.next b).state
    exact ⟨c :: cs, u, yields_cons_iff.mpr ⟨hc, hcs⟩, stop⟩
  · exact ⟨[], t, yields_nil t, fun c hc => h ⟨c, hc⟩⟩
termination_by t.size

/-- The characters in front of the first other answer are determined. -/
theorem yields_unique {cs cs' : List Char} {u' : Translator σ} (h : Yields b t cs u)
    (h' : Yields b t cs' u') (stop : ∀ c, (u.next b).answer ≠ .ok (.char c))
    (stop' : ∀ c, (u'.next b).answer ≠ .ok (.char c)) : cs = cs' ∧ u = u' := by
  induction cs generalizing t cs' with
  | nil =>
    obtain rfl : t = u := congrArg Prod.snd h
    cases cs' with
    | nil => exact ⟨rfl, congrArg Prod.snd h'⟩
    | cons c cs' => exact absurd (yields_cons_iff.mp h').1 (stop c)
  | cons c cs ih =>
    obtain ⟨first, rest⟩ := yields_cons_iff.mp h
    cases cs' with
    | nil =>
      obtain rfl : t = u' := congrArg Prod.snd h'
      exact absurd first (stop' c)
    | cons d cs' =>
      obtain ⟨first', rest'⟩ := yields_cons_iff.mp h'
      rw [first] at first'
      cases first'
      obtain ⟨rfl, same⟩ := ih rest rest'
      exact ⟨rfl, same⟩

theorem extend_of_yields {cs : List Char} (h : Yields b t cs u)
    (stop : ∀ c, (u.next b).answer ≠ .ok (.char c)) {n : Nat} (room : cs.length < n)
    (as : Array (Except Failure Item)) (events : Array Event) :
    ∃ events', Run.extend next never none n ⟨b, t, as, events⟩ =
      ⟨b, (u.next b).state, (as ++ (answers cs).toArray).push (u.next b).answer, events'⟩ := by
  induction cs generalizing t n as events with
  | nil =>
    obtain rfl : t = u := congrArg Prod.snd h
    obtain ⟨n, rfl⟩ := Nat.exists_eq_succ_of_ne_zero (Nat.ne_of_gt room)
    have halts := Run.readsOn_never stop
    refine ⟨events ++ (t.next b).events, ?_⟩
    simp [Run.extend, Run.push, halts, Run.track_none, answers]
  | cons c cs ih =>
    obtain ⟨ha, hcs⟩ := yields_cons_iff.mp h
    obtain ⟨n, rfl⟩ := Nat.exists_eq_succ_of_ne_zero (Nat.ne_of_gt (Nat.zero_lt_of_lt room))
    obtain ⟨events', he⟩ := ih hcs (Nat.lt_of_succ_lt_succ room) (as.push (.ok (.char c)))
      (events ++ (t.next b).events)
    refine ⟨events', ?_⟩
    simp only [Run.extend, Run.push, ha, Run.readsOn, Run.track, if_true, he]
    simp [answers]

theorem runAll_of_yields {cs : List Char} (h : Yields b t cs u)
    (stop : ∀ c, (u.next b).answer ≠ .ok (.char c)) :
    (t.runAll b none).answers = (answers cs).toArray.push (u.next b).answer ∧
      (t.runAll b none).state = (u.next b).state := by
  have room : cs.length < t.size + 1 := Nat.lt_succ_of_le (Nat.le_of_add_right_le h.size_le)
  obtain ⟨events, he⟩ := extend_of_yields h stop room #[] #[]
  have run : t.runAll b none = Run.extend next never none (t.size + 1) ⟨b, t, #[], #[]⟩ := rfl
  rw [run, he]
  exact ⟨by simp, rfl⟩

theorem filterMap_answers (cs : List Char) : (answers cs).filterMap Run.char? = cs := by
  induction cs with
  | nil => rfl
  | cons c cs ih => exact congrArg (c :: ·) ih

theorem chars_push {τ : Type} {cs : List Char} {a : Except Failure Item} (r : Run τ Failure)
    (hr : r.answers = (answers cs).toArray.push a) (h : ∀ c, a ≠ .ok (.char c)) :
    r.chars = cs.toArray := by
  simp [Run.chars, hr, Run.char?_eq_none h, filterMap_answers]

theorem foldl_answers (cs : List Char) (out : String) :
    (answers cs).foldl (fun out a => match Run.char? a with
      | some c => out.push c
      | none => out) out = out ++ String.ofList cs := by
  induction cs generalizing out with
  | nil => simp [answers]
  | cons c cs ih =>
    refine (ih (out.push c)).trans ?_
    apply String.toList_inj.mp
    simp

/-- Reading all reports the characters before the first answer that is none. -/
theorem readAll_of_yields {cs : List Char} (h : Yields b t cs u)
    (stop : ∀ c, (u.next b).answer ≠ .ok (.char c)) (out : String) :
    (t.readAll b out).answer =
      ((u.next b).answer.map fun _ => cs.length, out ++ String.ofList cs) := by
  obtain ⟨run, _⟩ := runAll_of_yields h stop
  have last := Run.char?_eq_none stop
  have chars := chars_push (t.runAll b none) run stop
  have text : (t.runAll b none).appendTo out = out ++ String.ofList cs := by
    rw [Run.appendTo, run, Array.foldl_push, last, List.foldl_toArray]
    exact foldl_answers cs out
  simp only [readAll, Run.stop?_push _ run stop, text, chars]
  cases (u.next b).answer <;> rfl

theorem readAll_of_ended {cs : List Char} (h : Yields b t cs u)
    (stop : (u.next b).answer = .ok .ended) (out : String) :
    (t.readAll b out).answer = (.ok cs.length, out ++ String.ofList cs) := by
  rw [readAll_of_yields h (by simp [stop]), stop]
  rfl

theorem readAll_of_error {cs : List Char} {f : Failure} (h : Yields b t cs u)
    (stop : (u.next b).answer = .error f) (out : String) :
    (t.readAll b out).answer = (.error f, out ++ String.ofList cs) := by
  rw [readAll_of_yields h (by simp [stop]), stop]
  rfl

end Translator
end EscapedText
