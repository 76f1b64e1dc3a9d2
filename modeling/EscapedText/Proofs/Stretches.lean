import EscapedText.Proofs.Interruptions
import EscapedText.Proofs.Undecided
import Mathlib.Data.List.Basic

/-!
Faults of the source, wherever they strike. A stretch of characters in front of a fault is whole
tokens and at most one undecided start. The tokens come out before the source is asked for the
fault, the fault comes out as it is, and the start is dropped with it; what comes behind is read as
if nothing had been before. So each fault is answered once, in order.
-/
namespace EscapedText

abbrev Tape := List (Except Fault Char)

/-- Characters and faults in their order, and then the end for good. -/
def Script.ofTape (es : Tape) : Script := { entries := es.map (Except.map Item.char) }

namespace Translator

variable {es : Tape} {l : Option Locator} {p : Position} {b : Bookmarks}

/-- Between two tokens, with `es` to come and nothing held. -/
def resting (es : Tape) (l : Option Locator) (p : Position) : Translator Script :=
  { source := .ofTape es, locator := l, position := p }

theorem next_resting : (resting es l p).next b = (resting es l p).scan b .fresh #[] :=
  next_of_free b rfl rfl

theorem scan_tape {s s' : Scan} {v : List Char} (h : s.reach? v = some s') :
    (resting (v.map .ok ++ es) l p).scan b s #[] = (resting es l (p.past v)).scan b s' #[] := by
  induction v generalizing s p with
  | nil =>
    cases h
    rfl
  | cons c v ih =>
    cases hs : s.feed (.char c) with
    | more t =>
      rw [Scan.reach?_more hs] at h
      exact (scan_more rfl hs).trans (ih h)
    | settled o =>
      rw [Scan.reach?_settled hs] at h
      contradiction

theorem next_struck {s : Scan} {r : List Char} {f : Fault} (h : Scan.fresh.reach? r = some s) :
    (resting (r.map .ok ++ .error f :: es) l p).next b =
      ⟨.error (.source f), resting es l (p.past r), #[]⟩ := by
  rw [next_resting, scan_tape h]
  exact scan_fault rfl

theorem next_settled {w : List Char} {o : Outcome} (h : Scan.Settles .fresh w o) :
    (resting (w.map .ok ++ es) l p).next b = settle b (resting es l (p.past w)) #[] o := by
  cases h with
  | @last v c t o reach fed =>
    have chars : (v ++ [c]).map Except.ok ++ es = v.map Except.ok ++ .ok c :: es := by simp
    rw [next_resting, chars, scan_tape reach, Position.past_append]
    exact scan_settled rfl fed

/-- Neither a fault of the source nor the end of the input. -/
def Decided : Except Failure Item → Prop
  | .ok i => i ≠ .ended
  | .error f => f.isMalformed

/-- So many reads take all of `d` and ask for nothing behind it, so what is there does not show. -/
def Takes (n : Nat) (d : List Char) : Prop :=
  ∀ (l : Option Locator) (p : Position) (bs : List Bookmarks), bs.length = n →
    ∃ as l', (∀ a ∈ as, Decided a) ∧ ∀ after : Tape,
      (resting (d.map .ok ++ after) l p).reads bs = (as, resting after l' (p.past d))

theorem exists_append {α : Type} {bs : List α} {m n : Nat} (h : bs.length = m + n) :
    ∃ xs ys, bs = xs ++ ys ∧ xs.length = m ∧ ys.length = n := by
  refine ⟨bs.take m, bs.drop m, (List.take_append_drop m bs).symm, ?_, ?_⟩
  · rw [List.length_take, h]
    exact Nat.min_eq_left (Nat.le_add_right m n)
  · rw [List.length_drop, h, Nat.add_sub_cancel_left]

theorem takes_nil : Takes 0 [] := by
  intro l p bs none
  obtain rfl : bs = [] := List.length_eq_zero_iff.mp none
  exact ⟨[], l, nofun, fun after => rfl⟩

theorem Takes.append {m n : Nat} {d d' : List Char} (h : Takes m d) (h' : Takes n d') :
    Takes (m + n) (d ++ d') := by
  intro l p bs count
  obtain ⟨xs, ys, rfl, hx, hy⟩ := exists_append count
  obtain ⟨as, l', all, first⟩ := h l p xs hx
  obtain ⟨as', l'', all', second⟩ := h' l' (p.past d) ys hy
  refine ⟨as ++ as', l'', ?_, ?_⟩
  · intro a ha
    exact (List.mem_append.mp ha).elim (all a) (all' a)
  · intro after
    rw [reads_append, List.map_append, List.append_assoc, first, second, Position.past_append]

/-- What is answered to a settled token does not depend on what comes behind it. -/
theorem settle_resting {o : Outcome} (endless : o.Endless) (l : Option Locator) (p : Position) :
    ∃ a l', Decided a ∧ ∀ es, ∃ events, settle b (resting es l p) #[] o =
      ⟨a, { resting es l' p with held := o.held }, events⟩ := by
  cases o with
  | plain i held => exact ⟨.ok i, l, endless.1, fun es => ⟨_, rfl⟩⟩
  | decoded c => exact ⟨.ok (.char c), l, nofun, fun es => ⟨_, rfl⟩⟩
  | broken d held =>
    let place := (resting [] l p).cite b
    exact ⟨.error (.refused (.malformed place.1 d)), place.2, rfl, fun es => ⟨_, rfl⟩⟩

theorem held_ne_ended {o : Outcome} (endless : o.Endless) : o.held ≠ some .ended := by
  cases o with
  | plain i held => exact endless.2
  | decoded c => nofun
  | broken d held => exact endless

theorem takes_of_settles {w : List Char} {o : Outcome} (h : Scan.Settles .fresh w o) :
    ∃ n, Takes n w := by
  have endless := h.endless
  cases held : o.held with
  | none =>
    refine ⟨1, ?_⟩
    intro l p bs one
    obtain ⟨b, rfl⟩ := List.length_eq_one_iff.mp one
    obtain ⟨a, l', decided, turn⟩ := settle_resting (b := b) endless l (p.past w)
    refine ⟨[a], l', by simpa using decided, ?_⟩
    intro after
    obtain ⟨events, turn⟩ := turn after
    rw [held] at turn
    rw [reads, next_settled h, turn]
    rfl
  | some i =>
    refine ⟨2, ?_⟩
    intro l p bs two
    obtain ⟨b, b', rfl⟩ := List.length_eq_two.mp two
    obtain ⟨a, l', decided, turn⟩ := settle_resting (b := b) endless l (p.past w)
    have other : i ≠ .ended := fun ended => held_ne_ended endless (ended ▸ held)
    refine ⟨[a, .ok i], l', by simpa using ⟨decided, other⟩, ?_⟩
    intro after
    obtain ⟨events, turn⟩ := turn after
    have back := next_of_held b' (t := { resting after l' (p.past w) with held := some i }) rfl rfl
    rw [held] at turn
    rw [reads, next_settled h, turn, reads, back]
    rfl

theorem exists_takes (c : List Char) :
    ∃ d r n, c = d ++ r ∧ Takes n d ∧ ∃ s, Scan.fresh.reach? r = some s := by
  rcases Scan.reach_or_settles .fresh c with reach | ⟨w, rest, o, rfl, settles, -⟩
  · exact ⟨[], c, 0, rfl, takes_nil, reach⟩
  · obtain ⟨m, token⟩ := takes_of_settles settles
    have shorter : rest.length < (w ++ rest).length := by
      cases settles
      simp
      omega
    obtain ⟨d, r, n, rfl, takes, reach⟩ := exists_takes rest
    exact ⟨w ++ d, r, m + n, (List.append_assoc w d r).symm, token.append takes, reach⟩
termination_by c.length

/-! The parts of a stretch are determined. -/

theorem size_reads_le {σ : Type} [Source σ] (t : Translator σ) (bs : List Bookmarks) :
    (t.reads bs).2.size ≤ t.size := by
  induction bs generalizing t with
  | nil => exact Nat.le_refl _
  | cons b bs ih => exact Nat.le_trans (ih (t.next b).state) (t.size_next_le b)

theorem size_resting : (resting es l p).size = es.length := by
  have entries : (resting es l p).size = (es.map (Except.map Item.char)).length := rfl
  rw [entries, List.length_map]

theorem Takes.state {n : Nat} {d : List Char} (h : Takes n d) (after : Tape) :
    ∃ l' q, ((resting (d.map .ok ++ after) l p).reads (List.replicate n b)).2 =
      resting after l' q := by
  obtain ⟨as, l', -, reads⟩ := h l p (List.replicate n b) List.length_replicate
  exact ⟨l', p.past d, congrArg Prod.snd (reads after)⟩

theorem eq_nil_of_takes {m n : Nat} {d x : List Char} {s : Scan} (h : Takes m d)
    (h' : Takes n (d ++ x)) (reach : Scan.fresh.reach? x = some s) : x = [] := by
  -- In front of a fault, `m` reads leave all of `x` and `n` reads leave the fault alone.
  let f : Fault := .refused .closed
  let t := resting ((d ++ x).map .ok ++ [.error f]) none .start
  have whole : t = resting (d.map .ok ++ (x.map .ok ++ [.error f])) none .start := by simp [t]
  obtain ⟨l, q, early⟩ := h.state (l := none) (p := .start) (b := {}) (x.map .ok ++ [.error f])
  obtain ⟨l', q', late⟩ := h'.state (l := none) (p := .start) (b := {}) [.error f]
  rw [← whole] at early
  have late : (t.reads (List.replicate n {})).2 = resting [.error f] l' q' := late
  rcases Nat.le_total n m with fewer | more
  · obtain ⟨k, rfl⟩ := Nat.exists_eq_add_of_le fewer
    rw [← List.replicate_append_replicate, reads_append] at early
    have early : ((resting [.error f] l' q').reads (List.replicate k {})).2 =
        resting (x.map .ok ++ [.error f]) l q := late ▸ early
    have size := size_reads_le (resting [.error f] l' q') (List.replicate k {})
    rw [early, size_resting, size_resting] at size
    simpa using size
  · obtain ⟨k, rfl⟩ := Nat.exists_eq_add_of_le more
    rw [← List.replicate_append_replicate, reads_append] at late
    have late : ((resting (x.map .ok ++ [.error f]) l q).reads (List.replicate k {})).2 =
        resting [.error f] l' q' := early ▸ late
    cases k with
    | zero =>
      have size : (resting (x.map .ok ++ [.error f]) l q).size =
          (resting [.error f] l' q').size := congrArg Translator.size late
      rw [size_resting, size_resting] at size
      simpa using size
    | succ k =>
      -- One more read takes the fault along with `x`.
      have struck : (resting (x.map .ok ++ [.error f]) l q).next {} =
          ⟨.error (.source f), resting [] l (q.past x), #[]⟩ := next_struck reach
      simp only [List.replicate_succ, reads, struck] at late
      have size := size_reads_le (resting [] l (q.past x)) (List.replicate k {})
      rw [late, size_resting, size_resting] at size
      contradiction

theorem reach_of_open {r : List Char} (h : r = [] ∨ Undecided r) :
    ∃ s, Scan.fresh.reach? r = some s := by
  rcases h with rfl | undecided
  · exact ⟨.fresh, rfl⟩
  · exact reach_of_undecided undecided

theorem parts_unique {m n : Nat} {d d' r r' : List Char} (h : d ++ r = d' ++ r') (hd : Takes m d)
    (hd' : Takes n d') (hr : r = [] ∨ Undecided r) (hr' : r' = [] ∨ Undecided r') :
    d = d' ∧ r = r' := by
  rcases List.append_eq_append_iff.mp h with ⟨x, rfl, rfl⟩ | ⟨x, rfl, rfl⟩
  · obtain ⟨s, reach⟩ := reach_of_open hr
    obtain ⟨t, reach⟩ := Scan.reach_of_append reach
    have none := eq_nil_of_takes hd hd' reach
    simp [none]
  · obtain ⟨s, reach⟩ := reach_of_open hr'
    obtain ⟨t, reach⟩ := Scan.reach_of_append reach
    have none := eq_nil_of_takes hd' hd reach
    simp [none]

/-! Whole tapes. -/

/-- The fault of the source that is answered. -/
def fault? : Except Failure Item → Option Fault
  | .error (.source f) => some f
  | _ => none

theorem fault?_of_decided {a : Except Failure Item} (h : Decided a) : fault? a = none := by
  cases a with
  | ok i => rfl
  | error f =>
    cases f with
    | refused r => rfl
    | source f => contradiction

theorem filterMap_decided {as : List (Except Failure Item)} (h : ∀ a ∈ as, Decided a) :
    as.filterMap fault? = [] := by
  rw [List.filterMap_eq_nil_iff]
  intro a ha
  exact fault?_of_decided (h a ha)

/-- So many reads take the stretch and the fault behind it. -/
theorem exists_passes (c : List Char) :
    ∃ n, ∀ l p (bs : List Bookmarks), bs.length = n → ∃ as l', (∀ a ∈ as, Decided a) ∧
      ∀ (f : Fault) (after : Tape), (resting (c.map .ok ++ .error f :: after) l p).reads bs =
        (as ++ [.error (.source f)], resting after l' (p.past c)) := by
  obtain ⟨d, r, n, rfl, takes, s, reach⟩ := exists_takes c
  refine ⟨n + 1, ?_⟩
  intro l p bs count
  obtain ⟨xs, ys, rfl, hx, hy⟩ := exists_append count
  obtain ⟨b, rfl⟩ := List.length_eq_one_iff.mp hy
  obtain ⟨as, l', all, first⟩ := takes l p xs hx
  refine ⟨as, l', all, ?_⟩
  intro f after
  have whole : (d ++ r).map Except.ok ++ .error f :: after =
      d.map Except.ok ++ (r.map Except.ok ++ .error f :: after) := by simp
  rw [whole, reads_append, first, reads, next_struck reach, Position.past_append]
  rfl

/-- Nothing is left but the end of the input, which may be held. -/
structure Spent (t : Translator Script) : Prop where
  opened : t.closed = false
  held : t.held = none ∨ t.held = some .ended
  ahead : t.source = .ofTape []

theorem reads_spent {t : Translator Script} (h : Spent t) (bs : List Bookmarks) :
    (t.reads bs).1 = List.replicate bs.length (.ok .ended) := by
  induction bs generalizing t with
  | nil => rfl
  | cons b bs ih =>
    have step : Source.next b t.source = ⟨.ok .ended, t.source, #[]⟩ := by
      rw [h.ahead]
      rfl
    obtain ⟨source, events, behind, turn⟩ := next_at_end h.opened h.held (congrArg Turn.answer step)
    have same : source = t.source := behind.elim id fun moved => moved.trans (congrArg _ step)
    have spent : Spent (t.next b).state := by
      rw [turn, same]
      exact ⟨h.opened, .inl rfl, h.ahead⟩
    rw [reads, ih spent, turn]
    rfl

theorem next_last {s : Scan} {r : List Char} (h : Scan.fresh.reach? r = some s) :
    fault? ((resting (r.map .ok) l p).next b).answer = none ∧
      Spent ((resting (r.map .ok) l p).next b).state := by
  have scan : (resting (r.map .ok ++ []) l p).scan b .fresh #[] =
      (resting [] l (p.past r)).scan b s #[] := scan_tape h
  rw [List.append_nil] at scan
  rw [next_resting, scan, scan_settled (i := .ended) rfl s.feed_ended_eq_final]
  cases s with
  | fresh => exact ⟨rfl, rfl, .inl rfl, rfl⟩
  | slash high => cases high <;> exact ⟨rfl, rfl, .inr rfl, rfl⟩
  | digits high count value => exact ⟨rfl, rfl, .inr rfl, rfl⟩
  | alone high => exact ⟨rfl, rfl, .inr rfl, rfl⟩

def faults (es : Tape) : List Fault := es.filterMap fun
  | .error f => some f
  | .ok _ => none

theorem exists_stretch (es : Tape) :
    (∃ c : List Char, es = c.map .ok) ∨
      ∃ (c : List Char) (f : Fault) (after : Tape), es = c.map .ok ++ .error f :: after := by
  induction es with
  | nil => exact .inl ⟨[], rfl⟩
  | cons e es ih =>
    cases e with
    | error f => exact .inr ⟨[], f, es, rfl⟩
    | ok x =>
      rcases ih with ⟨c, rfl⟩ | ⟨c, f, after, rfl⟩
      · exact .inl ⟨x :: c, rfl⟩
      · exact .inr ⟨x :: c, f, after, rfl⟩

theorem faults_chars (c : List Char) : faults (c.map .ok) = [] := by
  simp [faults]

theorem exists_reads_faults (es : Tape) :
    ∃ n, ∀ l p (bs : List Bookmarks), bs.length = n →
      ((resting es l p).reads bs).1.filterMap fault? = faults es ∧
        ∀ cs, (((resting es l p).reads bs).2.reads cs).1 =
          List.replicate cs.length (.ok .ended) := by
  rcases exists_stretch es with ⟨c, rfl⟩ | ⟨c, f, after, rfl⟩
  · obtain ⟨d, r, n, rfl, takes, s, reach⟩ := exists_takes c
    refine ⟨n + 1, ?_⟩
    intro l p bs count
    obtain ⟨xs, ys, rfl, hx, hy⟩ := exists_append count
    obtain ⟨b, rfl⟩ := List.length_eq_one_iff.mp hy
    obtain ⟨as, l', all, first⟩ := takes l p xs hx
    obtain ⟨quiet, spent⟩ := next_last (l := l') (p := p.past d) (b := b) reach
    rw [faults_chars, List.map_append, reads_append, first]
    constructor
    · simp [reads, filterMap_decided all, quiet]
    · intro cs
      exact reads_spent spent cs
  · have shorter : after.length < (c.map Except.ok ++ Except.error f :: after).length := by
      simp
      omega
    obtain ⟨m, passes⟩ := exists_passes c
    obtain ⟨n, later⟩ := exists_reads_faults after
    refine ⟨m + n, ?_⟩
    intro l p bs count
    obtain ⟨xs, ys, rfl, hx, hy⟩ := exists_append count
    obtain ⟨as, l', all, first⟩ := passes l p xs hx
    obtain ⟨answered, ended⟩ := later l' (p.past c) ys hy
    rw [reads_append, first]
    constructor
    · have mine : faults (c.map Except.ok ++ .error f :: after) = f :: faults after := by
        simp [faults]
      simp [filterMap_decided all, answered, mine, fault?]
    · exact ended
termination_by es.length

/-- The stretches with the faults that end them. -/
def struck (before : List (List Char × Fault)) : Tape :=
  before.flatMap fun s => s.1.map .ok ++ [.error s.2]

theorem exists_reads_struck (before : List (List Char × Fault)) :
    ∃ n, ∀ l p (bs : List Bookmarks), bs.length = n → ∃ l', ∀ after : Tape,
      ((resting (struck before ++ after) l p).reads bs).2 =
        resting after l' (p.past (before.flatMap Prod.fst)) := by
  induction before with
  | nil =>
    refine ⟨0, ?_⟩
    intro l p bs none
    obtain rfl : bs = [] := List.length_eq_zero_iff.mp none
    exact ⟨l, fun after => rfl⟩
  | cons s before ih =>
    obtain ⟨c, f⟩ := s
    obtain ⟨m, passes⟩ := exists_passes c
    obtain ⟨n, later⟩ := ih
    refine ⟨m + n, ?_⟩
    intro l p bs count
    obtain ⟨xs, ys, rfl, hx, hy⟩ := exists_append count
    obtain ⟨as, l', -, first⟩ := passes l p xs hx
    obtain ⟨l'', behind⟩ := later l' (p.past c) ys hy
    refine ⟨l'', ?_⟩
    intro after
    have whole : struck ((c, f) :: before) ++ after =
        c.map Except.ok ++ .error f :: (struck before ++ after) := by simp [struck]
    rw [whole, reads_append, first, behind, List.flatMap_cons, Position.past_append]

/-- Every fault is answered once, as it is and in order, before the end. A stretch in front of a
fault has just one division into characters that are taken without a look at what is behind them
and an open start of a token. The first come out as they would alone, the start is dropped, and the
position counts it all the same. -/
theorem faults_answered_starts_dropped (l : Option Locator) (p : Position) :
    (∀ es : Tape, ∃ n, ∀ bs : List Bookmarks, bs.length = n →
      ((resting es l p).reads bs).1.filterMap fault? = faults es ∧
        ∀ cs, (((resting es l p).reads bs).2.reads cs).1 =
          List.replicate cs.length (.ok .ended)) ∧
    ∀ (before : List (List Char × Fault)) (c : List Char) (f : Fault) (after : Tape),
      ∃ d r m n, c = d ++ r ∧ Takes n d ∧ (r = [] ∨ Undecided r) ∧
        (∀ d' r' n', c = d' ++ r' → Takes n' d' → (r' = [] ∨ Undecided r') →
          d' = d ∧ r' = r) ∧
        ∀ bs cs b, bs.length = m → cs.length = n → ∃ l₁ l₂ q,
          q = p.past (before.flatMap Prod.fst) ∧
          ((resting (struck before ++ (c.map .ok ++ .error f :: after)) l p).reads bs).2 =
            resting (c.map .ok ++ .error f :: after) l₁ q ∧
          (resting (c.map .ok ++ .error f :: after) l₁ q).reads cs =
            (((resting (d.map .ok) l₁ q).reads cs).1,
              resting (r.map .ok ++ .error f :: after) l₂ (q.past d)) ∧
          (resting (r.map .ok ++ .error f :: after) l₂ (q.past d)).next b =
            ⟨.error (.source f), resting after l₂ (q.past c), #[]⟩ := by
  constructor
  · intro es
    obtain ⟨n, reads⟩ := exists_reads_faults es
    exact ⟨n, reads l p⟩
  · intro before c f after
    obtain ⟨m, earlier⟩ := exists_reads_struck before
    obtain ⟨d, r, n, rfl, takes, s, reach⟩ := exists_takes c
    have start := undecided_of_reach reach
    refine ⟨d, r, m, n, rfl, takes, start, ?_, ?_⟩
    · intro d' r' n' parts takes' start'
      exact parts_unique parts.symm takes' takes start' start
    · intro bs cs b hb hc
      obtain ⟨l₁, behind⟩ := earlier l p bs hb
      let q := p.past (before.flatMap Prod.fst)
      obtain ⟨as, l₂, -, reads⟩ := takes l₁ q cs hc
      have alone := reads []
      have whole := reads (r.map .ok ++ .error f :: after)
      rw [List.append_nil] at alone
      refine ⟨l₁, l₂, q, rfl, behind _, ?_, ?_⟩
      · rw [alone, List.map_append, List.append_assoc, whole]
      · rw [next_struck reach, Position.past_append]

end Translator
end EscapedText
