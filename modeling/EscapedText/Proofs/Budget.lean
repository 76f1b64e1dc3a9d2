import EscapedText.Proofs.Consuming
import EscapedText.Proofs.Ending
import EscapedText.Proofs.Stretches

/-!
What comes out is paid for. Charge each character its price, each fault and each refusal no more
than one: then all that a translator ever answers costs no more than what its source answers. A scan
spends what it has taken, and what settles it is worth no more than that. At price one for all
answers this bounds the reads before the end, at the length of its UTF-8 for each character it
bounds the size of the text. It holds layer by layer, so it holds for translators over translators.
-/
namespace EscapedText

/-- What is charged for a character and for an error. -/
structure Tariff where
  char : Char → Nat
  error : Nat
  least (c : Char) : 1 ≤ char c
  most (c : Char) : char c ≤ 4
  slash : char '\\' = 1
  low : error ≤ 1

namespace Tariff

def answers : Tariff where
  char _ := 1
  error := 1
  least _ := Nat.le_refl 1
  most _ := by decide
  slash := rfl
  low := Nat.le_refl 1

def chars : Tariff where
  char _ := 1
  error := 0
  least _ := Nat.le_refl 1
  most _ := by decide
  slash := rfl
  low := Nat.zero_le 1

def bytes : Tariff where
  char := Char.utf8Size
  error := 0
  least := Char.utf8Size_pos
  most := Char.utf8Size_le_four
  slash := rfl
  low := Nat.zero_le 1

variable (k : Tariff)

def item : Item → Nat
  | .char c => k.char c
  | .ended => 0

def answer {ε : Type} : Except ε Item → Nat
  | .ok i => k.item i
  | .error _ => k.error

def back : Option Item → Nat
  | some i => k.item i
  | none => 0

def outcome : Outcome → Nat
  | .plain i held => k.item i + k.back held
  | .decoded c => k.char c
  | .broken _ held => k.error + k.back held

end Tariff

namespace Scan

/-- The least that an escape in front can have cost. -/
def front : Option CodeUnit → Nat
  | none => 0
  | some _ => 6

/-- The least that what was scanned can have cost. -/
def spent : Scan → Nat
  | fresh => 0
  | slash high => front high + 1
  | digits high count _ => front high + 2 + count
  | alone _ => 6

variable {k : Tariff} {x y : Scan} {high : Option CodeUnit} {u : CodeUnit} {i : Item} {o : Outcome}

theorem spent_complete_more (h : complete high u = .more y) : y.spent ≤ front high + 6 := by
  unfold complete at h
  repeat' split at h
  all_goals cases h
  exact Nat.le_refl 6

theorem outcome_complete (h : complete high u = .settled o) : k.outcome o ≤ front high + 6 := by
  have low := k.low
  have most := k.most
  have worth : k.outcome o ≤ 5 := by
    unfold complete at h
    repeat' split at h
    all_goals cases h
    · exact Nat.le_trans low (by decide)
    · exact Nat.le_trans (most _) (by decide)
    · exact Nat.le_trans (most _) (by decide)
    · exact Nat.le_trans low (by decide)
    · exact Nat.add_le_add low (most _)
  omega

/-- A scan that goes on has been paid for. -/
theorem spent_more (h : x.feed i = .more y) : y.spent ≤ x.spent + k.item i := by
  obtain ⟨c, rfl⟩ := char_of_feed h
  have paid : 1 ≤ k.item (.char c) := k.least c
  cases x with
  | fresh =>
    simp only [feed] at h
    split at h
    · cases h
      simp only [spent, front]
      omega
    · cases h
  | slash high =>
    simp only [feed] at h
    split at h
    · cases h
      simp only [spent, Fin.val_zero]
      omega
    · cases h
  | digits high count value =>
    simp only [feed] at h
    split at h
    · cases h
      exact Nat.le_add_right ..
    · split at h
      · cases h
      · split at h
        · rename_i last
          subst last
          have done := spent_complete_more h
          have before : (digits high 3 value).spent = front high + 5 := rfl
          omega
        · rename_i early
          cases h
          have next : (count + 1).val = count.val + 1 := by omega
          simp only [spent, next]
          omega
  | alone high =>
    simp only [feed] at h
    split at h
    · cases h
      simp only [spent, front]
      omega
    · cases h

/-- What settles a scan is worth no more than what the scan has cost. -/
theorem outcome_settled (h : x.feed i = .settled o) : k.outcome o ≤ x.spent + k.item i := by
  have low := k.low
  cases x with
  | fresh =>
    simp only [feed] at h
    split at h
    · cases h
    · cases h
      simp only [Tariff.outcome, Tariff.back, spent]
      omega
  | slash high =>
    simp only [feed] at h
    split at h
    · cases h
    · cases h
      have slash := k.slash
      cases high <;> simp only [literal, Tariff.outcome, Tariff.back, Tariff.item, spent] <;> omega
  | digits high count value =>
    simp only [feed] at h
    split at h
    · cases h
    · split at h
      · cases h
        simp only [Tariff.outcome, Tariff.back, spent]
        omega
      · rename_i d digit
        have paid : 1 ≤ k.item i := by
          cases i with
          | char c => exact k.least c
          | ended => cases digit
        split at h
        · rename_i last
          subst last
          have done := outcome_complete (k := k) h
          have before : (digits high 3 value).spent = front high + 5 := rfl
          omega
        · cases h
  | alone high =>
    simp only [feed] at h
    split at h
    · cases h
    · cases h
      simp only [Tariff.outcome, Tariff.back, spent]
      omega

end Scan

namespace Source

variable {σ : Type} [Source σ] {k : Tariff} {n : Nat} {s : σ}

def outputs (s : σ) : List Bookmarks → List (Except Fault Item)
  | [] => []
  | b :: bs => (next b s).answer :: outputs (next b s).state bs

/-- All that `s` ever answers costs `n` at most. -/
def Within (k : Tariff) (n : Nat) (s : σ) : Prop :=
  ∀ bs, ((outputs s bs).map k.answer).sum ≤ n

theorem Within.next (h : Within k n s) (b : Bookmarks) :
    ∃ left, Within k left (next b s).state ∧ k.answer (next b s).answer + left ≤ n := by
  have first : k.answer (Source.next b s).answer ≤ n := h [b]
  refine ⟨n - k.answer (Source.next b s).answer, ?_, by omega⟩
  intro bs
  have whole : k.answer (Source.next b s).answer +
      ((outputs (Source.next b s).state bs).map k.answer).sum ≤ n := h (b :: bs)
  omega

theorem within_of_invariant {I : Nat → σ → Prop}
    (pays : ∀ b n s, I n s →
      ∃ left, I left (Source.next b s).state ∧ k.answer (Source.next b s).answer + left ≤ n)
    (h : I n s) : Within k n s := by
  intro bs
  induction bs generalizing n s with
  | nil => exact Nat.zero_le n
  | cons b bs ih =>
    obtain ⟨left, later, paid⟩ := pays b n s h
    have rest := ih later
    rw [outputs, List.map_cons, List.sum_cons]
    omega

end Source

open Source (Within outputs Lasting Reaches)

namespace Translator

variable {σ : Type} [Source σ] {k : Tariff} {n : Nat} {b : Bookmarks} {s : σ} {t : Translator σ}

/-- What is held back and all that the source ever answers cost `n` at most. -/
structure Solvent (k : Tariff) (n : Nat) (t : Translator σ) : Prop where
  opened : t.closed = false
  covered : ∃ left, Within k left t.source ∧ k.back t.held + left ≤ n

/-- `m` pays for the answer of a turn and for all that is still to come. -/
def Paid (k : Tariff) (m : Nat) (turn : Turn (Translator σ) (Except Failure Item)) : Prop :=
  ∃ left, Solvent k left turn.state ∧ k.answer turn.answer + left ≤ m

/-- With `m` more, whatever covers the source of `t` pays for the turn. -/
def Affords (k : Tariff) (m : Nat) (t : Translator σ)
    (turn : Turn (Translator σ) (Except Failure Item)) : Prop :=
  ∀ n, Within k n t.source → Paid k (m + n) turn

theorem settle_paid (opened : t.closed = false) (free : t.held = none)
    (within : Within k n t.source) (events : Array Event) {o : Outcome} {m : Nat}
    (worth : k.outcome o ≤ m) : Paid k (m + n) (settle b t events o) := by
  cases o with
  | plain i held =>
    refine ⟨k.back held + n, ⟨opened, n, within, Nat.le_refl _⟩, ?_⟩
    have worth : k.item i + k.back held ≤ m := worth
    have answer : k.answer (settle b t events (.plain i held)).answer = k.item i := rfl
    omega
  | decoded c =>
    refine ⟨n, ⟨opened, n, within, ?_⟩, Nat.add_le_add_right worth n⟩
    have held : (settle b t events (.decoded c)).state.held = none := free
    rw [held]
    exact Nat.le_of_eq (Nat.zero_add n)
  | broken d held =>
    refine ⟨k.back held + n, ⟨opened, n, within, Nat.le_refl _⟩, ?_⟩
    have worth : k.error + k.back held ≤ m := worth
    have answer : k.answer (settle b t events (.broken d held)).answer = k.error := rfl
    omega

/-- What a scan comes to is paid for by what it has taken and by the source. -/
theorem scan_affords (opened : t.closed = false) (free : t.held = none) (x : Scan)
    (events : Array Event) : Affords k x.spent t (t.scan b x events) := by
  fun_induction scan b t x events with
  | case1 t x events turn all f fault =>
    intro n within
    obtain ⟨left, later, paid⟩ := within.next b
    rw [fault] at paid
    refine ⟨left, ⟨opened, left, later, ?_⟩, Nat.le_trans paid (Nat.le_add_left ..)⟩
    rw [free]
    exact Nat.le_of_eq (Nat.zero_add left)
  | case2 t x events turn all i answer t' x' more smaller ih =>
    intro n within
    obtain ⟨left, later, paid⟩ := within.next b
    have price : k.answer (Source.next b t.source).answer = k.item i := congrArg k.answer answer
    have spent := Scan.spent_more (k := k) more
    obtain ⟨rest, solvent, enough⟩ := ih opened free left later
    exact ⟨rest, solvent, by omega⟩
  | case3 t x events turn all i answer t' o settled =>
    intro n within
    obtain ⟨left, later, paid⟩ := within.next b
    have price : k.answer (Source.next b t.source).answer = k.item i := congrArg k.answer answer
    have worth := Scan.outcome_settled (k := k) settled
    obtain ⟨rest, solvent, enough⟩ := settle_paid (b := b) (t := t') opened free later all worth
    exact ⟨rest, solvent, by omega⟩

theorem next_paid (h : Solvent k n t) (b : Bookmarks) : Paid k n (t.next b) := by
  obtain ⟨left, within, covered⟩ := h.covered
  cases held : t.held with
  | none =>
    rw [next_of_free b h.opened held]
    obtain ⟨rest, solvent, paid⟩ :=
      scan_affords (b := b) h.opened held .fresh #[] left within
    have fresh : Scan.fresh.spent = 0 := rfl
    exact ⟨rest, solvent, by omega⟩
  | some i =>
    rw [next_of_held b h.opened held]
    rw [held] at covered
    refine ⟨left, ⟨h.opened, left, within, ?_⟩, covered⟩
    exact Nat.le_of_eq (Nat.zero_add left)

theorem answer_passOn (k : Tariff) (a : Except Failure Item) :
    k.answer (Failure.passOn a) = k.answer a := by
  cases a <;> rfl

theorem Solvent.within (h : Solvent k n t) : Within k n t := by
  refine Source.within_of_invariant (I := Solvent k) ?_ h
  intro b n t h
  obtain ⟨left, later, paid⟩ := next_paid h b
  exact ⟨left, later, (answer_passOn k (t.next b).answer).symm ▸ paid⟩

/-- All that a translator ever answers costs no more than what its source answers. -/
theorem within_fresh (within : Within k n s) (l : Option Locator) :
    Within k n ({ source := s, locator := l } : Translator σ) := by
  apply Solvent.within
  exact ⟨rfl, n, within, Nat.le_of_eq (Nat.zero_add n)⟩

theorem reads_within (within : Within k n t) (bs : List Bookmarks) :
    ((t.reads bs).1.map k.answer).sum ≤ n := by
  have same : (outputs t bs).map k.answer = (t.reads bs).1.map k.answer := by
    clear within
    induction bs generalizing t with
    | nil => rfl
    | cons b bs ih => exact congrArg₂ List.cons (answer_passOn k (t.next b).answer) ih
  rw [← same]
  exact within bs

end Translator

theorem Stack.within {σ : Type} [Source σ] {k : Tariff} {m : Nat} {s : σ} (within : Within k m s)
    (n : Nat) : Within k m (Stack.ofSource s n) := by
  induction n with
  | zero => exact within
  | succ n ih => exact Translator.within_fresh ih none

theorem Script.within (k : Tariff) (p : Script) : Within k (p.entries.map k.answer).sum p := by
  apply Source.within_of_invariant
    (I := fun n (p : Script) => (p.entries.map k.answer).sum ≤ n) ?_ (Nat.le_refl _)
  intro b n p enough
  cases ahead : p.entries with
  | nil =>
    rw [next_nil ahead]
    exact ⟨n, enough, Nat.le_of_eq (Nat.zero_add n)⟩
  | cons e es =>
    rw [next_cons ahead]
    rw [ahead, List.map_cons, List.sum_cons] at enough
    exact ⟨(es.map k.answer).sum, Nat.le_refl _, enough⟩

theorem TextSource.within (k : Tariff) (s : TextSource) :
    Within k (s.unread.map k.char).sum s := by
  apply Source.within_of_invariant
    (I := fun n (s : TextSource) => (s.unread.map k.char).sum ≤ n) ?_ (Nat.le_refl _)
  intro b n s enough
  cases unread : s.unread with
  | nil =>
    rw [source_next_nil b unread]
    exact ⟨n, enough, Nat.le_of_eq (Nat.zero_add n)⟩
  | cons c v =>
    obtain ⟨s', step, rest⟩ := source_next_cons b unread
    rw [step]
    rw [unread, List.map_cons, List.sum_cons] at enough
    exact ⟨(v.map k.char).sum, Nat.le_of_eq (by rw [rest]), enough⟩

theorem Run.Stretch.length_le {past : Failure → Bool} {n : Nat} {as : List (Except Failure Item)}
    (h : Stretch past n as) : as.length ≤ n := by
  induction h with
  | full => exact Nat.le_refl 0
  | more on later ih => exact Nat.succ_le_succ ih
  | last off => exact Nat.succ_le_succ (Nat.zero_le _)

/-! What the sums come to. -/

namespace Tariff

variable {ε : Type} (as : List (Except ε Item))

theorem sum_answers (unended : .ok .ended ∉ as) : (as.map answers.answer).sum = as.length := by
  induction as with
  | nil => rfl
  | cons a as ih =>
    obtain ⟨other, later⟩ := List.ne_and_not_mem_of_not_mem_cons unended
    have one : answers.answer a = 1 := by
      cases a with
      | error e => rfl
      | ok i =>
        cases i with
        | char c => rfl
        | ended => exact absurd rfl other
    rw [List.map_cons, List.sum_cons, ih later, one, List.length_cons, Nat.add_comm]

/-- Where errors cost nothing, only characters are charged. -/
theorem sum_free {k : Tariff} (free : k.error = 0) :
    (as.map k.answer).sum = ((as.filterMap Run.char?).map k.char).sum := by
  induction as with
  | nil => rfl
  | cons a as ih =>
    rw [List.map_cons, List.sum_cons, ih]
    cases a with
    | error e => exact (congrArg (· + _) free).trans (Nat.zero_add _)
    | ok i =>
      cases i with
      | char c => rfl
      | ended => exact Nat.zero_add _

theorem sum_chars (cs : List Char) : (cs.map chars.char).sum = cs.length := by
  induction cs with
  | nil => rfl
  | cons c cs ih => rw [List.map_cons, List.sum_cons, ih, List.length_cons, Nat.add_comm]; rfl

end Tariff

namespace Translator

variable {σ : Type} [Source σ] {b : Bookmarks} {s : σ} {t : Translator σ} {n : Nat}
  {raw : List Char}

theorem reads_finished (h : Finished t) (bs : List Bookmarks) :
    (t.reads bs).1 = List.replicate bs.length (.ok .ended) := by
  induction bs generalizing t with
  | nil => rfl
  | cons b bs ih =>
    obtain ⟨answer, later⟩ := next_finished h b
    rw [reads, answer, ih later]
    rfl

/-- Reads are answered otherwise first, and then the end for good. -/
theorem exists_results (lasting : Lasting s) (h : Faithful s t) (bs : List Bookmarks) :
    ∃ results m, (t.reads bs).1 = results ++ List.replicate m (.ok .ended) ∧
      .ok .ended ∉ results := by
  induction bs generalizing t with
  | nil => exact ⟨[], 0, rfl, List.not_mem_nil⟩
  | cons b bs ih =>
    by_cases ended : (t.next b).answer = .ok .ended
    · have finished := finished_of_next lasting h ended
      refine ⟨[], bs.length + 1, ?_, List.not_mem_nil⟩
      rw [reads, ended, reads_finished finished]
      rfl
    · obtain ⟨results, m, answers, unended⟩ := ih (next_faithful h b)
      refine ⟨(t.next b).answer :: results, m, ?_, ?_⟩
      · rw [reads, answers]
        rfl
      · exact List.not_mem_cons_of_ne_of_not_mem (Ne.symm ended) unended

/-- Before its end an iterator takes one step for each answer. -/
theorem map_step? {as : List (Except Failure Item)} (unended : .ok .ended ∉ as) :
    ∃ steps : List (Except Failure Char), as.map step? = steps.map some := by
  induction as with
  | nil => exact ⟨[], rfl⟩
  | cons a as ih =>
    obtain ⟨other, later⟩ := List.ne_and_not_mem_of_not_mem_cons unended
    obtain ⟨steps, same⟩ := ih later
    rw [List.map_cons, same]
    cases a with
    | error f => exact ⟨.error f :: steps, rfl⟩
    | ok i =>
      cases i with
      | char c => exact ⟨.ok c :: steps, rfl⟩
      | ended => exact absurd rfl other

/-- The end comes behind at most `n` other answers and then for good, and the characters among
those are no more than `raw`, in number and in bytes of UTF-8. -/
def Ends (n : Nat) (raw : List Char) (as : List (Except Failure Item)) : Prop :=
  ∃ results m, as = results ++ List.replicate m (.ok .ended) ∧ .ok .ended ∉ results ∧
    results.length ≤ n ∧ (results.filterMap Run.char?).length ≤ raw.length ∧
    ((results.filterMap Run.char?).map Char.utf8Size).sum ≤ (raw.map Char.utf8Size).sum

/-- Reads of `t`, past every error, come to the end. To read all of it stops, and so does to iterate
over it. -/
structure Drains (t : Translator σ) (n : Nat) (raw : List Char) : Prop where
  reads : ∀ bs, Ends n raw (t.reads bs).1
  reaches : ∀ bs, n < bs.length → .ok .ended ∈ (t.reads bs).1
  readAll : ∀ b out, ∃ cs u, Yields b t cs u ∧ (∀ c, (u.next b).answer ≠ .ok (.char c)) ∧
    cs.length ≤ raw.length ∧ (t.readAll b out).answer =
      ((u.next b).answer.map fun _ => cs.length, out ++ String.ofList cs)
  iterate : ∀ b m, ∃ steps : List (Except Failure Char), steps.length ≤ n ∧ steps.length ≤ m ∧
    (t.iterate b m).answer = steps.map some ++ List.replicate (m - steps.length) none

/-- Bounds on all that is answered, at each tariff. -/
structure Bounded {σ : Type} [Source σ] (s : σ) (n : Nat) (raw : List Char) : Prop where
  answers : Within .answers n s
  chars : Within .chars raw.length s
  bytes : Within .bytes (raw.map Char.utf8Size).sum s

theorem reads_ends (lasting : Lasting s) (h : Faithful s t) (bounded : Bounded t n raw)
    (bs : List Bookmarks) : Ends n raw (t.reads bs).1 := by
  obtain ⟨results, m, whole, unended⟩ := exists_results lasting h bs
  have within {k : Tariff} {most : Nat} (h : Within k most t) :
      (results.map k.answer).sum ≤ most := by
    have bound := reads_within h bs
    rw [whole, List.map_append, List.sum_append] at bound
    exact Nat.le_of_add_right_le bound
  refine ⟨results, m, whole, unended, ?_, ?_, ?_⟩
  · rw [← Tariff.sum_answers results unended]
    exact within bounded.answers
  · rw [← Tariff.sum_chars, ← Tariff.sum_free results rfl]
    exact within bounded.chars
  · have charged := Tariff.sum_free results (k := .bytes) rfl
    exact charged ▸ within bounded.bytes

theorem Ends.reaches {as : List (Except Failure Item)} (h : Ends n raw as)
    (enough : n < as.length) : .ok .ended ∈ as := by
  obtain ⟨results, m, rfl, -, few, -⟩ := h
  rw [List.length_append, List.length_replicate] at enough
  exact List.mem_append_right _ (List.mem_replicate.mpr ⟨by omega, rfl⟩)

theorem iterate_stops (ends : ∀ bs, Ends n raw (t.reads bs).1) (b : Bookmarks) (m : Nat) :
    ∃ steps : List (Except Failure Char), steps.length ≤ n ∧ steps.length ≤ m ∧
      (t.iterate b m).answer = steps.map some ++ List.replicate (m - steps.length) none := by
  obtain ⟨as, taken, stretch, told⟩ := run_takes b t Failure.isMalformed m
  obtain ⟨results, j, answers, unended, few, -⟩ := ends (List.replicate as.length b)
  have whole : as = results ++ List.replicate j (.ok .ended) :=
    (congrArg Prod.fst told).symm.trans answers
  obtain ⟨steps, some⟩ := map_step? unended
  have length : steps.length = results.length := by
    have both := congrArg List.length some
    rw [List.length_map, List.length_map] at both
    exact both.symm
  have size : (t.run b Failure.isMalformed none m).answers.size = results.length + j := by
    rw [← Array.length_toList, taken, whole, List.length_append, List.length_replicate]
  have fits : results.length + j ≤ m := by
    have short := stretch.length_le
    rw [whole, List.length_append, List.length_replicate] at short
    exact short
  refine ⟨steps, length ▸ few, by omega, ?_⟩
  have rest : m - steps.length = j + (m - (results.length + j)) := by omega
  simp only [iterate, taken, size, whole, List.map_append, some, List.map_replicate, step?]
  rw [rest, ← List.replicate_append_replicate, List.append_assoc]

theorem drains_of_bounded (lasting : Lasting s) (h : Faithful s t) (bounded : Bounded t n raw) :
    Drains t n raw := by
  have ends := reads_ends lasting h bounded
  refine ⟨ends, fun bs enough => (ends bs).reaches (by rwa [length_reads]), ?_,
    iterate_stops ends⟩
  intro b out
  obtain ⟨cs, u, yields, stop⟩ := exists_yields b t
  refine ⟨cs, u, yields, stop, ?_, readAll_of_yields yields stop out⟩
  have bound := reads_within bounded.chars (List.replicate cs.length b)
  rw [yields, Tariff.sum_free _ rfl, filterMap_answers, Tariff.sum_chars] at bound
  exact bound

theorem drains_stack (lasting : Lasting s) (bounded : Bounded s n raw) (m : Nat)
    (l : Option Locator) :
    Drains ({ source := Stack.ofSource s m, locator := l } : Translator (Stack σ m)) n raw := by
  refine drains_of_bounded (Stack.lasting lasting m) ⟨.refl, nofun⟩ ?_
  exact ⟨within_fresh (Stack.within bounded.answers m) l,
    within_fresh (Stack.within bounded.chars m) l, within_fresh (Stack.within bounded.bytes m) l⟩

theorem unended_ofTape (es : Tape) : .ok .ended ∉ (Script.ofTape es).entries := by
  intro mem
  obtain ⟨e, -, same⟩ := List.mem_map.mp mem
  cases e <;> cases same

theorem bounded_ofTape (es : Tape) :
    Bounded (Script.ofTape es) es.length (es.filterMap Except.toOption) := by
  have raw : (Script.ofTape es).entries.filterMap Run.char? = es.filterMap Except.toOption := by
    have each : Run.char? ∘ (Except.map Item.char : Except Fault Char → Except Fault Item) =
        Except.toOption := by
      funext e
      cases e <;> rfl
    exact List.filterMap_map.trans (congrArg (es.filterMap ·) each)
  constructor
  · have within := Script.within .answers (Script.ofTape es)
    rw [Tariff.sum_answers _ (unended_ofTape es)] at within
    have length : (Script.ofTape es).entries.length = es.length := List.length_map ..
    exact length ▸ within
  · have within := Script.within .chars (Script.ofTape es)
    rw [Tariff.sum_free _ rfl, raw, Tariff.sum_chars] at within
    exact within
  · have within := Script.within .bytes (Script.ofTape es)
    rw [Tariff.sum_free _ rfl, raw] at within
    exact within

theorem bounded_ofText (text : String) :
    Bounded (TextSource.ofText text) text.length text.toList := by
  have unread := TextSource.unread_ofText text
  constructor
  · have within := TextSource.within .answers (TextSource.ofText text)
    have length : (text.toList.map Tariff.answers.char).sum = text.length :=
      (Tariff.sum_chars text.toList).trans String.length_toList
    rw [unread, length] at within
    exact within
  · have within := TextSource.within .chars (TextSource.ofText text)
    rw [unread, Tariff.sum_chars] at within
    exact within
  · have within := TextSource.within .bytes (TextSource.ofText text)
    rw [unread] at within
    exact within

/-- Let a script of characters and faults end for good, or a text. Any number of translators over it
come to their end behind no more answers than it has entries, and give no more characters and no
more bytes of UTF-8 than it has; to read all of a text and to iterate over it come to an end. -/
theorem drains_within_source :
    (∀ (es : Tape) (n : Nat) (l : Option Locator),
      Drains { source := Stack.ofSource (Script.ofTape es) n, locator := l } es.length
        (es.filterMap Except.toOption)) ∧
    ∀ (text : String) (n : Nat) (l : Option Locator),
      Drains { source := Stack.ofSource (TextSource.ofText text) n, locator := l } text.length
        text.toList := by
  constructor
  · intro es n l
    have lasting : Lasting (Script.ofTape es) :=
      Script.lasting fun e mem same => unended_ofTape es (same ▸ mem)
    exact drains_stack lasting (bounded_ofTape es) n l
  · intro text n l
    exact drains_stack (TextSource.lasting _) (bounded_ofText text) n l

end Translator
end EscapedText
