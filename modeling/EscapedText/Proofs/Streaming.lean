import EscapedText.Proofs.Agreement
import EscapedText.Proofs.TextReading

/-!
Sources whose answers are known in advance: characters, and then the end of the input for good or a
fault. A translator over the characters of a text reads like one over that text, so it gives what
their spelling means. A translator in front of a fault comes to a refusal of its own or to the
fault.
-/
namespace EscapedText

namespace Source

variable {σ : Type} [Source σ] {b : Bookmarks}

/-- The next answers of `s` are the characters `cs`, and `P` holds behind them. -/
def Leads (b : Bookmarks) (P : σ → Prop) : List Char → σ → Prop
  | [], s => P s
  | c :: cs, s => (next b s).answer = .ok (.char c) ∧ Leads b P cs (next b s).state

def after (b : Bookmarks) (s : σ) : Nat → σ
  | 0 => s
  | n + 1 => after b (next b s).state n

/-- The input has ended, and it stays so. -/
def Over (b : Bookmarks) (s : σ) : Prop := ∀ n, (next b (after b s n)).answer = .ok .ended

def Fails (b : Bookmarks) (f : Fault) (s : σ) : Prop := (next b s).answer = .error f

theorem over_of_invariant {I : σ → Prop}
    (keeps : ∀ s, I s → (next b s).answer = .ok .ended ∧ I (next b s).state) {s : σ} (h : I s) :
    Over b s := by
  intro n
  induction n generalizing s with
  | zero => exact (keeps s h).1
  | succ n ih => exact ih (keeps s h).2

theorem over_of_next {s : σ} (answer : (next b s).answer = .ok .ended)
    (later : Over b (next b s).state) : Over b s := by
  intro n
  cases n with
  | zero => exact answer
  | succ n => exact later n

/-- `s` answers the unread characters of `u` and then ends. -/
def Mirrors (b : Bookmarks) (u : TextSource) (s : σ) : Prop :=
  ∃ v, u.unread = v ∧ Leads b (Over b) v s

theorem next_mirrors {u : TextSource} {s : σ} (h : Mirrors b u s) :
    (next b u).answer = (next b s).answer ∧ Mirrors b (next b u).state (next b s).state := by
  obtain ⟨v, hv, leads⟩ := h
  cases v with
  | nil =>
    rw [TextSource.source_next_nil b hv]
    exact ⟨(leads 0).symm, [], hv, fun n => leads (n + 1)⟩
  | cons c v =>
    obtain ⟨u', hu, hv'⟩ := TextSource.source_next_cons b hv
    rw [hu]
    exact ⟨leads.1.symm, v, hv', leads.2⟩

theorem alike_mirrors : Alike b (Mirrors b (σ := σ)) where
  answer h := (next_mirrors h).1
  state h := (next_mirrors h).2

theorem over_text (u : TextSource) (h : u.unread = []) : Over b u := by
  refine over_of_invariant (I := fun s => s.unread = []) ?_ h
  intro s hs
  rw [TextSource.source_next_nil b hs]
  exact ⟨rfl, hs⟩

theorem leads_text {u : TextSource} {v : List Char} (hv : u.unread = v) :
    Leads b (Over b) v u := by
  induction v generalizing u with
  | nil => exact over_text u hv
  | cons c v ih =>
    obtain ⟨u', hu, hv'⟩ := TextSource.source_next_cons b hv
    refine ⟨by rw [hu], ?_⟩
    rw [hu]
    exact ih hv'

end Source

open Source (Leads Over Fails Mirrors)

namespace Translator

variable {σ : Type} [Source σ] {b : Bookmarks} {t u : Translator σ}

theorem leads_of_yields {P : Translator σ → Prop} {cs : List Char} (h : Yields b t cs u)
    (hu : P u) : Leads b P cs t := by
  induction cs generalizing t with
  | nil =>
    obtain rfl : t = u := congrArg Prod.snd h
    exact hu
  | cons c cs ih =>
    obtain ⟨first, rest⟩ := yields_cons_iff.mp h
    exact ⟨congrArg Failure.passOn first, ih rest⟩

theorem like_ofText {s : σ} {text : String} (h : Leads b (Over b) text.toList s) :
    Like (Mirrors b) (ofSource (TextSource.ofText text)) (ofSource s) := by
  apply like_ofSource
  exact ⟨text.toList, TextSource.unread_ofText text, h⟩

/-- Passing an answer on as a source changes no item. -/
theorem next_of_nextItem {i : Item} (passed : (t.nextItem b).answer = .ok i) :
    (t.next b).answer = .ok i := by
  have passed : Failure.passOn (t.next b).answer = .ok i := passed
  cases ha : (t.next b).answer with
  | ok j =>
    rw [ha] at passed
    cases passed
    rfl
  | error f =>
    rw [ha] at passed
    contradiction

theorem ended_of_over (h : Over b t) : (t.next b).answer = .ok .ended := next_of_nextItem (h 0)

/-- In front of a source that answers the end, a translator that holds nothing else answers it. -/
theorem next_at_end (opened : t.closed = false) (held : t.held = none ∨ t.held = some .ended)
    (ended : (Source.next b t.source).answer = .ok .ended) :
    ∃ source events, (source = t.source ∨ source = (Source.next b t.source).state) ∧
      t.next b = ⟨.ok .ended, { t with source, held := none }, events⟩ := by
  rcases held with free | back
  · have settled : Scan.fresh.feed .ended = .settled (.plain .ended none) := rfl
    exact ⟨_, _, .inr rfl, (next_of_free b opened free).trans (scan_settled ended settled)⟩
  · exact ⟨_, _, .inl rfl, next_of_held b opened back⟩

/-- A translator with nothing but the end before it is such a source again. -/
theorem over_of_source (opened : t.closed = false) (held : t.held = none ∨ t.held = some .ended)
    (ahead : Source.Over b t.source) : Over b t := by
  refine Source.over_of_invariant (I := fun t : Translator σ => t.closed = false ∧
    (t.held = none ∨ t.held = some .ended) ∧ Source.Over b t.source) ?_ ⟨opened, held, ahead⟩
  rintro t ⟨opened, held, ahead⟩
  obtain ⟨source, events, behind, turn⟩ := next_at_end opened held (ahead 0)
  have step : Source.next b t = t.nextItem b := rfl
  rw [step, nextItem, turn]
  refine ⟨rfl, opened, .inl rfl, ?_⟩
  rcases behind with rfl | rfl
  · exact ahead
  · exact fun n => ahead (n + 1)

theorem over_of_exhausted {u : Translator TextSource} (done : Exhausted u)
    (h : Like (Mirrors b) u t) : Over b t := by
  obtain ⟨v, hv, leads⟩ := h.source done.opened
  obtain rfl : v = [] := hv.symm.trans done.ahead
  apply over_of_source
  · exact h.closed.symm.trans done.opened
  · rw [← h.held]
    exact done.held
  · exact leads

theorem yields_meaning {s : σ} (r : Spelling) {text : String} (hr : r.text = text.toList)
    (h : Leads b (Over b) text.toList s) :
    ∃ u, Yields b (ofSource s) r.meaning u ∧ Over b u := by
  have ready := ready_ofText text
  rw [← hr] at ready
  obtain ⟨u, yields, done⟩ := yields_spelling b r ready
  obtain ⟨u', yields', like⟩ := yields_like Source.alike_mirrors (like_ofText h) yields
  exact ⟨u', yields', over_of_exhausted done like⟩

end Translator

/-! In front of a fault. -/

/-- The end of the input has no part in the outcome. -/
def Outcome.Endless : Outcome → Prop
  | .plain i held => i ≠ .ended ∧ held ≠ some .ended
  | .decoded _ => True
  | .broken _ held => held ≠ some .ended

theorem Scan.endless_of_complete {high : Option CodeUnit} {u : CodeUnit} {o : Outcome}
    (h : complete high u = .settled o) : o.Endless := by
  cases high with
  | none =>
    simp only [complete] at h
    split at h
    · cases h
      simp [Outcome.Endless]
    · split at h
      · contradiction
      · cases h
        trivial
  | some high =>
    simp only [complete] at h
    split at h
    · cases h
      trivial
    · split at h
      · cases h
        simp [Outcome.Endless]
      · cases h
        simp [Outcome.Endless]

theorem Scan.endless_of_feed {s : Scan} {c : Char} {o : Outcome}
    (h : s.feed (.char c) = .settled o) : o.Endless := by
  cases s with
  | fresh =>
    simp only [feed] at h
    split at h
    · contradiction
    · cases h
      simp [Outcome.Endless]
  | slash high =>
    simp only [feed] at h
    split at h
    · contradiction
    · cases h
      cases high <;> simp [literal, Outcome.Endless]
  | digits high count value =>
    simp only [feed] at h
    split at h
    · contradiction
    · split at h
      · cases h
        simp [Outcome.Endless]
      · split at h
        · exact endless_of_complete h
        · contradiction
  | alone high =>
    simp only [feed] at h
    split at h
    · contradiction
    · cases h
      simp [Outcome.Endless]

namespace Translator

variable {σ : Type} [Source σ] {b : Bookmarks} {t u : Translator σ}

/-- Open, with characters and then the fault `f` to come. -/
structure Doomed (b : Bookmarks) (f : Fault) (t : Translator σ) : Prop where
  opened : t.closed = false
  held : t.held ≠ some .ended
  ahead : ∃ cs, Leads b (Fails b f) cs t.source

/-- What reading comes to in front of `f`: the fault, or a refusal of its own. -/
def Stopped (f : Fault) (answer : Except Failure Item) : Prop :=
  answer = .error (.source f) ∨ ∃ p d, answer = .error (.refused (.malformed p d))

/-- Stopped, or a character with the fault still ahead. -/
def Nears (b : Bookmarks) (f : Fault) (turn : Turn (Translator σ) (Except Failure Item)) : Prop :=
  Stopped f turn.answer ∨ (∃ c, turn.answer = .ok (.char c)) ∧ Doomed b f turn.state

variable {f : Fault}

theorem nears_settle {o : Outcome} (ho : o.Endless) (opened : t.closed = false)
    (ahead : ∃ cs, Leads b (Fails b f) cs t.source) (held : t.held ≠ some .ended)
    (events : Array Event) : Nears b f (settle b t events o) := by
  cases o with
  | plain i held =>
    cases i with
    | char c => exact .inr ⟨⟨c, rfl⟩, opened, ho.2, ahead⟩
    | ended => exact absurd rfl ho.1
  | decoded c => exact .inr ⟨⟨c, rfl⟩, opened, held, ahead⟩
  | broken d held => exact .inl (.inr ⟨(t.cite b).1, d, rfl⟩)

theorem nears_scan (s : Scan) (events : Array Event) {cs : List Char} (opened : t.closed = false)
    (held : t.held ≠ some .ended) (ahead : Leads b (Fails b f) cs t.source) :
    Nears b f (t.scan b s events) := by
  induction cs generalizing s t events with
  | nil =>
    have fails : (Source.next b t.source).answer = .error f := ahead
    rw [scan_fault fails]
    exact .inl (.inl rfl)
  | cons c cs ih =>
    obtain ⟨first, rest⟩ := ahead
    cases hs : s.feed (.char c) with
    | more s' =>
      rw [scan_more first hs]
      exact ih s' _ opened held rest
    | settled o =>
      rw [scan_settled first hs]
      apply nears_settle (Scan.endless_of_feed hs)
      · exact opened
      · exact ⟨cs, rest⟩
      · exact held

theorem nears_next (h : Doomed b f t) : Nears b f (t.next b) := by
  obtain ⟨cs, ahead⟩ := h.ahead
  cases hi : t.held with
  | none =>
    rw [next_of_free b h.opened hi]
    exact nears_scan .fresh #[] h.opened h.held ahead
  | some i =>
    cases i with
    | char c =>
      rw [next_of_held b h.opened hi]
      exact .inr ⟨⟨c, rfl⟩, h.opened, by simp, cs, ahead⟩
    | ended => exact absurd hi h.held

theorem doomed_of_yields {cs : List Char} (yields : Yields b t cs u) (h : Doomed b f t) :
    Doomed b f u := by
  induction cs generalizing t with
  | nil =>
    obtain rfl : t = u := congrArg Prod.snd yields
    exact h
  | cons c cs ih =>
    obtain ⟨first, rest⟩ := yields_cons_iff.mp yields
    rcases nears_next h with stopped | ⟨-, later⟩
    · rcases stopped with fault | ⟨p, d, refused⟩
      · rw [first] at fault
        contradiction
      · rw [first] at refused
        contradiction
    · exact ih rest later

theorem stopped_of_doomed (h : Doomed b f t) :
    ∃ cs u, Yields b t cs u ∧ Stopped f (u.next b).answer := by
  obtain ⟨cs, u, yields, stop⟩ := exists_yields b t
  rcases nears_next (doomed_of_yields yields h) with stopped | ⟨⟨c, hc⟩, -⟩
  · exact ⟨cs, u, yields, stopped⟩
  · exact absurd hc (stop c)

end Translator
end EscapedText
