import EscapedText.Proofs.Grammar

/-! Every text that is not empty begins with a piece, with a broken escape or with a backslash that
is its last character. So it is a spelling, or pieces and then something broken. -/
namespace EscapedText

theorem exists_run (v : List Char) :
    ∃ k w, v = List.replicate k 'u' ++ w ∧ w.head? ≠ some 'u' := by
  induction v with
  | nil => exact ⟨0, [], rfl, by simp⟩
  | cons c v ih =>
    by_cases hc : c = 'u'
    · obtain ⟨k, w, rfl, hw⟩ := ih
      exact ⟨k + 1, w, by rw [hc]; rfl, hw⟩
    · exact ⟨0, c :: v, rfl, by simpa using hc⟩

theorem exists_digits (n : Nat) (v : List Char) :
    ∃ (ds : List HexDigit) (w : List Char), v = ds.map HexDigit.char ++ w ∧ ds.length ≤ n ∧
      (ds.length < n → ∀ d : HexDigit, w.head? ≠ some d.char) := by
  induction n generalizing v with
  | zero => exact ⟨[], v, rfl, Nat.le_refl 0, fun h => absurd h (Nat.lt_irrefl 0)⟩
  | succ n ih =>
    by_cases hv : ∃ d : HexDigit, v.head? = some d.char
    · obtain ⟨d, hd⟩ := hv
      obtain ⟨v', rfl⟩ := List.head?_eq_some_iff.mp hd
      obtain ⟨ds, w, rfl, hlen, hstop⟩ := ih v'
      exact ⟨d :: ds, w, rfl, Nat.succ_le_succ hlen, fun h => hstop (Nat.lt_of_succ_lt_succ h)⟩
    · exact ⟨[], v, rfl, Nat.zero_le _, fun _ d hd => hv ⟨d, hd⟩⟩

theorem exists_opening (v : List Char) :
    (∃ (e : Escape) (w : List Char), '\\' :: 'u' :: v = e.text ++ w) ∨
      ∃ (s : Stub) (w : List Char), '\\' :: 'u' :: v = s.text ++ w ∧ s.EndsAt w := by
  obtain ⟨k, v', rfl, hrun⟩ := exists_run v
  obtain ⟨ds, w, rfl, hlen, hstop⟩ := exists_digits 4 v'
  have text : '\\' :: 'u' :: (List.replicate k 'u' ++ (ds.map HexDigit.char ++ w)) =
      opening k ds ++ w := by
    simp [opening, List.replicate_succ]
  rcases Nat.lt_or_eq_of_le hlen with few | four
  · refine .inr ⟨⟨k, ds, few⟩, w, text, ?_, hstop few⟩
    intro none
    have hds : ds = [] := none
    rw [hds] at hrun
    exact hrun
  · exact .inl ⟨⟨k, ds, four⟩, w, text⟩

/-- A surrogate has its partner behind it, or the text is broken there. -/
theorem begins_of_high {e : Escape} (h : IsHigh e.value) (v : List Char) :
    (∃ (f : Escape) (w : List Char), IsLow f.value ∧ v = f.text ++ w) ∨
      ∃ d held rest, Broken (e.text ++ v) d held rest := by
  by_cases slash : v.head? = some '\\'
  · obtain ⟨w, rfl⟩ := List.head?_eq_some_iff.mp slash
    by_cases u : w.head? = some 'u'
    · obtain ⟨w', rfl⟩ := List.head?_eq_some_iff.mp u
      rcases exists_opening w' with ⟨f, x, hx⟩ | ⟨s, x, hx, hs⟩
      · rw [hx]
        by_cases low : IsLow f.value
        · exact .inl ⟨f, x, low, rfl⟩
        · by_cases high : IsHigh f.value
          · exact .inr ⟨_, _, _, .high e f x h high⟩
          · exact .inr ⟨_, _, _, .unit e f x h high low⟩
      · rw [hx]
        exact .inr ⟨_, _, _, .shortLow e s h hs⟩
    · exact .inr ⟨_, _, _, .slash e h u⟩
  · exact .inr ⟨_, _, _, .alone e h slash⟩

theorem begins (v : List Char) :
    v = [] ∨ v = ['\\'] ∨ (∃ (p : Piece) (w : List Char), v = p.text ++ w) ∨
      ∃ d held rest, Broken v d held rest := by
  match v with
  | [] => exact .inl rfl
  | [c] =>
    by_cases hc : c = '\\'
    · exact .inr (.inl (by rw [hc]))
    · exact .inr (.inr (.inl ⟨.plain c hc, [], rfl⟩))
  | c :: c' :: v =>
    by_cases hc : c = '\\'
    · subst hc
      by_cases hu : c' = 'u'
      · subst hu
        rcases exists_opening v with ⟨e, w, hw⟩ | ⟨s, w, hw, hs⟩
        · rw [hw]
          by_cases high : IsHigh e.value
          · rcases begins_of_high high w with ⟨f, x, low, rfl⟩ | broken
            · exact .inr (.inr (.inl ⟨.pair e f high low, x, (List.append_assoc ..).symm⟩))
            · exact .inr (.inr (.inr broken))
          · by_cases low : IsLow e.value
            · exact .inr (.inr (.inr ⟨_, _, _, .low e w low⟩))
            · exact .inr (.inr (.inl ⟨.unit e high low, w, rfl⟩))
        · rw [hw]
          exact .inr (.inr (.inr ⟨_, _, _, .short s hs⟩))
      · exact .inr (.inr (.inl ⟨.literal c' hu, v, rfl⟩))
    · exact .inr (.inr (.inl ⟨.plain c hc, c' :: v, rfl⟩))

/-- A text that is no spelling is pieces and then something broken. -/
theorem spelled_or_broken (v : List Char) : (∃ s : Spelling, s.text = v) ∨
    ∃ (ps : List Piece) (w : List Char) (d : Defect) (held : Option Item) (rest : List Char),
      v = ps.flatMap Piece.text ++ w ∧ Broken w d held rest := by
  rcases begins v with rfl | rfl | ⟨p, w, rfl⟩ | ⟨d, held, rest, broken⟩
  · exact .inl ⟨⟨[], false⟩, rfl⟩
  · exact .inl ⟨⟨[], true⟩, rfl⟩
  · rcases spelled_or_broken w with ⟨⟨ps, trailing⟩, rfl⟩ | ⟨ps, w, d, held, rest, rfl, broken⟩
    · exact .inl ⟨⟨p :: ps, trailing⟩, Spelling.text_cons ..⟩
    · exact .inr ⟨p :: ps, w, d, held, rest, by simp, broken⟩
  · exact .inr ⟨[], v, d, held, rest, rfl, broken⟩
termination_by v.length
decreasing_by
  have := List.length_pos_iff.mpr (p.text_append_ne_nil [])
  simp_all

end EscapedText
