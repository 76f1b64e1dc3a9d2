import EscapedText.Proofs.TextReading

/-! The texts that a translator reads to the end are those with a spelling, and what it makes of
them is what their only spelling means. -/
namespace EscapedText.Translator

theorem readAll_ok_iff_spelled (b : Bookmarks) (text : String) :
    (∀ n out, ((ofSource (TextSource.ofText text)).readAll b "").answer = (.ok n, out) ↔
      ∃ s : Spelling, s.text = text.toList ∧ n = s.meaning.length ∧
        out = String.ofList s.meaning) ∧
    Function.Injective Spelling.text := by
  have ready := ready_ofText text
  constructor
  · intro n out
    constructor
    · intro h
      rcases spelled_or_refused b ready with ⟨s, hs⟩ | ⟨cs, u, p, d, yields, refused⟩
      · rw [← hs] at ready
        rw [readAll_spelling b s ready] at h
        obtain ⟨hn, hout⟩ := Prod.mk.inj h
        exact ⟨s, hs, (Except.ok.inj hn).symm, by rw [← hout, String.empty_append]⟩
      · rw [readAll_of_error yields refused] at h
        obtain ⟨hn, -⟩ := Prod.mk.inj h
        contradiction
    · rintro ⟨s, hs, rfl, rfl⟩
      rw [← hs] at ready
      rw [readAll_spelling b s ready, String.empty_append]
  · intro s r h
    exact Spelling.text_injective h

end EscapedText.Translator
