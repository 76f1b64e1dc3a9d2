import EscapedText.Translator

/-!
A translator over a finite source is finite: no read makes it larger, and a read that answers a
character or asks for another try makes it smaller. So a translator is a source again, and
translators stack.
-/
namespace EscapedText.Translator

variable {σ : Type} [Source σ]

/-- Characters still to come: those of the source and a held one. -/
def size (t : Translator σ) : Nat := Source.size t.source + Scan.weight t.held

theorem size_settle {b : Bookmarks} {t : Translator σ} {events : Array Event} {o : Outcome}
    (h : t.held = none) :
    (settle b t events o).state.size = Source.size t.source + Scan.weight o.held := by
  cases o <;> simp [settle, size, h, Outcome.held]

theorem size_scan_le {b : Bookmarks} {t : Translator σ} {s : Scan} {events : Array Event}
    (h : t.held = none) : (t.scan b s events).state.size ≤ Source.size t.source := by
  fun_induction scan b t s events with
  | case1 t s events turn all f hf =>
    have := Source.size_next_le b t.source
    simpa [size, h, Scan.weight] using this
  | case2 t s events turn all i hi t' s' hs hlt ih =>
    exact Nat.le_trans (ih h) (Nat.le_of_lt hlt)
  | case3 t s events turn all i hi t' o hs =>
    have hw := Scan.weight_held_le hs
    have hn := Source.size_next_add hi
    rw [size_settle (t := t') h]
    exact Nat.le_trans (Nat.add_le_add_left hw _) hn

theorem size_scan_fresh_lt {b : Bookmarks} {t : Translator σ} {events : Array Event}
    (h : t.held = none)
    (ha : Advances (Failure.passOn (t.scan b .fresh events).answer)) :
    (t.scan b .fresh events).state.size < Source.size t.source := by
  cases hn : (Source.next b t.source).answer with
  | error f =>
    rw [scan_fault hn] at ha ⊢
    simpa [size, h, Scan.weight] using Source.size_next_lt b t.source (by rw [hn]; exact ha)
  | ok i =>
    have hi := Source.size_next_add hn
    cases hs : Scan.fresh.feed i with
    | more s' =>
      rw [scan_more hn hs]
      exact Nat.lt_of_le_of_lt (size_scan_le h) (size_next_of_feed hn hs)
    | settled o =>
      rw [scan_settled hn hs] at ha ⊢
      simp only [Scan.feed] at hs
      split at hs
      · contradiction
      · cases hs
        cases i with
        | char c => exact hi
        | ended => exact ha.elim

theorem size_nextItem_le (b : Bookmarks) (t : Translator σ) :
    (t.nextItem b).state.size ≤ t.size := by
  simp only [nextItem, next]
  split
  · exact Nat.le_refl _
  · split
    · simp [size, Scan.weight]
    · rename_i h
      simpa [size, h, Scan.weight] using size_scan_le h

theorem size_nextItem_lt (b : Bookmarks) (t : Translator σ) (ha : Advances (t.nextItem b).answer) :
    (t.nextItem b).state.size < t.size := by
  simp only [nextItem, next] at ha ⊢
  split
  · simp_all [Failure.passOn, Failure.toFault, Advances, Fault.kind]
  · rename_i hc
    rw [if_neg hc] at ha
    split
    · rename_i i h
      cases i with
      | char c => simp [size, h, Scan.weight, Item.weight]
      | ended => simp_all [Failure.passOn, Advances]
    · rename_i h
      simp only [h] at ha
      simpa [size, h, Scan.weight] using size_scan_fresh_lt h ha

theorem size_next_le (b : Bookmarks) (t : Translator σ) : (t.next b).state.size ≤ t.size :=
  t.size_nextItem_le b

theorem size_next_lt {b : Bookmarks} {t : Translator σ} {c : Char}
    (h : (t.next b).answer = .ok (.char c)) : (t.next b).state.size < t.size :=
  t.size_nextItem_lt b (by simp [nextItem, h, Failure.passOn, Advances])

theorem size_next_lt_of_interrupted {b : Bookmarks} {t : Translator σ} {f : Failure}
    (h : (t.next b).answer = .error f) (hf : f.toFault.kind = .interrupted) :
    (t.next b).state.size < t.size :=
  t.size_nextItem_lt b (by simp [nextItem, h, Failure.passOn, Advances, hf])

instance : Source (Translator σ) where
  next := nextItem
  close := closeItem
  size := size
  size_next_le := size_nextItem_le
  size_next_lt := size_nextItem_lt

end EscapedText.Translator
