import EscapedText.Proofs.Reading

/-!
Sources that answer alike. Let a relation between the states of two sources make their next answers
equal and hold again behind them. Then translators that differ in their sources alone, and in
related states of them, give the same answers for as long as they are read.
-/
namespace EscapedText

/-- Related states answer the same, and the states behind the answers are related again. -/
structure Source.Alike {σ τ : Type} [Source σ] [Source τ] (b : Bookmarks) (R : σ → τ → Prop) :
    Prop where
  answer {s : σ} {u : τ} (h : R s u) : (next b s).answer = (next b u).answer
  state {s : σ} {u : τ} (h : R s u) : R (next b s).state (next b u).state

namespace Translator

variable {σ τ : Type} {R : σ → τ → Prop} {b : Bookmarks} {t : Translator σ} {u : Translator τ}

/-- The same but for the sources. Those of closed translators do not matter. -/
structure Like (R : σ → τ → Prop) (t : Translator σ) (u : Translator τ) : Prop where
  held : t.held = u.held
  locator : t.locator = u.locator
  position : t.position = u.position
  closed : t.closed = u.closed
  source : t.closed = false → R t.source u.source

theorem like_ofSource {s : σ} {s' : τ} (h : R s s') : Like R (ofSource s) (ofSource s') :=
  ⟨rfl, rfl, rfl, rfl, fun _ => h⟩

theorem like_locatedBy (h : Like R t u) (l : Locator) :
    Like R (t.locatedBy l) (u.locatedBy l) :=
  ⟨h.held, rfl, h.position, h.closed, h.source⟩

theorem cite_like (h : Like R t u) : t.cite b = u.cite b := by
  unfold cite
  rw [h.locator, h.position]

theorem settle_like (h : Like R t u) (events events' : Array Event) (o : Outcome) :
    (settle b t events o).answer = (settle b u events' o).answer ∧
      Like R (settle b t events o).state (settle b u events' o).state := by
  have place := cite_like (b := b) h
  cases o with
  | plain i held =>
    refine ⟨rfl, ?_⟩
    exact ⟨rfl, h.locator, h.position, h.closed, h.source⟩
  | decoded c => exact ⟨rfl, h⟩
  | broken d held =>
    constructor
    · simp only [settle, place]
    · exact ⟨rfl, congrArg Prod.snd place, h.position, h.closed, h.source⟩

variable [Source σ] [Source τ]

theorem scan_like (alike : Source.Alike b R) (s : Scan) (events : Array Event)
    (opened : t.closed = false) :
    ∀ (u : Translator τ) (events' : Array Event), Like R t u →
      (t.scan b s events).answer = (u.scan b s events').answer ∧
        Like R (t.scan b s events).state (u.scan b s events').state := by
  fun_induction scan b t s events with
  | case1 t s events turn all f hf =>
    intro u events' h
    have related := h.source opened
    rw [scan_fault ((alike.answer related).symm.trans hf)]
    refine ⟨rfl, ?_⟩
    exact ⟨h.held, h.locator, h.position, h.closed, fun _ => alike.state related⟩
  | case2 t s events turn all i hi t' s' hs hlt ih =>
    intro u events' h
    have related := h.source opened
    rw [scan_more ((alike.answer related).symm.trans hi) hs]
    apply ih opened
    exact ⟨h.held, h.locator, congrArg (advance · i) h.position, h.closed,
      fun _ => alike.state related⟩
  | case3 t s events turn all i hi t' o hs =>
    intro u events' h
    have related := h.source opened
    rw [scan_settled ((alike.answer related).symm.trans hi) hs]
    apply settle_like
    exact ⟨h.held, h.locator, congrArg (advance · i) h.position, h.closed,
      fun _ => alike.state related⟩

theorem next_like (alike : Source.Alike b R) (h : Like R t u) :
    (t.next b).answer = (u.next b).answer ∧ Like R (t.next b).state (u.next b).state := by
  unfold next
  rw [← h.closed]
  split
  · exact ⟨rfl, h⟩
  · rename_i opened
    rw [← h.held]
    cases t.held with
    | some i => exact ⟨rfl, ⟨rfl, h.locator, h.position, rfl, h.source⟩⟩
    | none => exact scan_like alike .fresh #[] (by simpa using opened) u #[] h

theorem nextItem_like (alike : Source.Alike b R) (h : Like R t u) :
    (t.nextItem b).answer = (u.nextItem b).answer ∧
      Like R (t.nextItem b).state (u.nextItem b).state := by
  obtain ⟨answer, state⟩ := next_like alike h
  exact ⟨congrArg Failure.passOn answer, state⟩

theorem yields_like (alike : Source.Alike b R) (h : Like R t u) {cs : List Char}
    {t' : Translator σ} (yields : Yields b t cs t') :
    ∃ u', Yields b u cs u' ∧ Like R t' u' := by
  induction cs generalizing t u with
  | nil =>
    obtain rfl : t = t' := congrArg Prod.snd yields
    exact ⟨u, yields_nil u, h⟩
  | cons c cs ih =>
    obtain ⟨first, rest⟩ := yields_cons_iff.mp yields
    obtain ⟨answer, state⟩ := next_like alike h
    obtain ⟨u', later, like⟩ := ih state rest
    exact ⟨u', yields_cons_iff.mpr ⟨answer.symm.trans first, later⟩, like⟩

theorem readAll_like (alike : Source.Alike b R) (h : Like R t u) (out : String) :
    (t.readAll b out).answer = (u.readAll b out).answer ∧
      Like R (t.readAll b out).state (u.readAll b out).state := by
  obtain ⟨cs, t', yields, stop⟩ := exists_yields b t
  obtain ⟨u', yields', like⟩ := yields_like alike h yields
  obtain ⟨answer, state⟩ := next_like alike like
  have stop' : ∀ c, (u'.next b).answer ≠ .ok (.char c) := by
    rw [← answer]
    exact stop
  constructor
  · rw [readAll_of_yields yields stop, readAll_of_yields yields' stop', answer]
  · have left : (t.readAll b out).state = (t'.next b).state := (runAll_of_yields yields stop).2
    have right : (u.readAll b out).state = (u'.next b).state := (runAll_of_yields yields' stop').2
    rw [left, right]
    exact state

/-! Runs of a given length, where a follower may move its bookmark between two reads. -/

structure RunLike (R : σ → τ → Prop) (r : Run (Translator σ) Failure)
    (r' : Run (Translator τ) Failure) : Prop where
  bookmarks : r.bookmarks = r'.bookmarks
  answers : r.answers = r'.answers
  state : Like R r.state r'.state

variable {past : Failure → Bool} {follow : Option Bookmark} {r : Run (Translator σ) Failure}
  {r' : Run (Translator τ) Failure}

theorem extend_like (alike : ∀ b, Source.Alike b R) (n : Nat) (h : RunLike R r r') :
    RunLike R (Run.extend next past follow n r) (Run.extend next past follow n r') := by
  induction n generalizing r r' with
  | zero => exact h
  | succ n ih =>
    obtain ⟨answer, state⟩ := next_like (alike r.bookmarks) h.state
    rw [h.bookmarks] at answer state
    have pushed : RunLike R (r.push follow (r.state.next r'.bookmarks))
        (r'.push follow (r'.state.next r'.bookmarks)) := by
      constructor
      · simp only [Run.push, h.bookmarks, answer]
      · simp only [Run.push, h.answers, answer]
      · exact state
    simp only [Run.extend, h.bookmarks, answer]
    split
    · exact ih pushed
    · exact pushed

theorem run_like (alike : ∀ b, Source.Alike b R) (h : Like R t u) (past : Failure → Bool)
    (follow : Option Bookmark) (limit : Nat) :
    RunLike R (t.run b past follow limit) (u.run b past follow limit) :=
  extend_like alike limit ⟨rfl, rfl, h⟩

theorem readInto_like (alike : ∀ b, Source.Alike b R) (h : Like R t u) (buffer : List Char) :
    (t.readInto b buffer).answer = (u.readInto b buffer).answer ∧
      Like R (t.readInto b buffer).state (u.readInto b buffer).state := by
  have run := run_like (b := b) alike h never none buffer.length
  have chars : (t.run b never none buffer.length).chars =
      (u.run b never none buffer.length).chars := by
    rw [Run.chars, run.answers, Run.chars]
  have stop : (t.run b never none buffer.length).stop? =
      (u.run b never none buffer.length).stop? := by
    rw [Run.stop?, run.answers, Run.stop?]
  constructor
  · simp only [readInto, chars, stop]
  · exact run.state

theorem iterate_like (alike : ∀ b, Source.Alike b R) (h : Like R t u) (n : Nat) :
    (t.iterate b n).answer = (u.iterate b n).answer ∧
      Like R (t.iterate b n).state (u.iterate b n).state := by
  have run := run_like (b := b) alike h Failure.isMalformed none n
  constructor
  · simp only [iterate, run.answers]
  · exact run.state

theorem close_like
    (closes : ∀ {s u}, R s u → (Source.close s).answer = (Source.close u).answer)
    (h : Like R t u) :
    t.close.answer = u.close.answer ∧ Like R t.close.state u.close.state := by
  unfold close
  rw [← h.closed]
  split
  · exact ⟨rfl, h⟩
  · rename_i opened
    have related := h.source (by simpa using opened)
    constructor
    · exact congrArg Failure.ofSource (closes related)
    · exact ⟨rfl, h.locator, h.position, rfl, nofun⟩

end Translator
end EscapedText
