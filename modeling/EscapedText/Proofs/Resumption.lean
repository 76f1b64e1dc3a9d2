import EscapedText.Proofs.TextReading

/-! A read refuses exactly the broken beginnings. The defect, the item held back and the place
where reading resumes are those of the beginning. -/
namespace EscapedText.Translator

theorem eq_broken_of_malformed {σ : Type} {b : Bookmarks} {t : Translator σ}
    {events : Array Event} {o : Outcome} {q : Position} {d : Defect}
    (h : (settle b t events o).answer = .error (.refused (.malformed q d))) :
    ∃ held, o = .broken d held := by
  cases o with
  | plain i held => cases h
  | decoded c => cases h
  | broken d' held =>
    cases h
    exact ⟨held, rfl⟩

theorem next_malformed_iff_broken (b : Bookmarks) (source : TextSource) (p : Position) :
    (∀ d, (∃ q, (Translator.next b { source, position := p }).answer =
        .error (.refused (.malformed q d))) ↔
      ∃ held rest, Broken source.unread d held rest) ∧
    ∀ d held rest, Broken source.unread d held rest →
      ∃ source' used, source.unread = used ++ rest ∧
        source'.text = source.text ∧ source'.unread = rest ∧
        Translator.next b { source, position := p } =
          ⟨.error (.refused (.malformed (p.past used) d)),
            { source := source', held, position := p.past used },
            #[.malformed (p.past used) d]⟩ := by
  have ready : Ready { source, position := p } source.unread := ⟨rfl, rfl, rfl⟩
  constructor
  · intro d
    constructor
    · rintro ⟨q, h⟩
      obtain ⟨source', used, -, -, -, hn⟩ := next_of_ready b ready
      rw [hn] at h
      obtain ⟨held, ho⟩ := eq_broken_of_malformed h
      exact ⟨held, _, broken_of_through ho⟩
    · rintro ⟨held, rest, h⟩
      obtain ⟨source', used, -, -, -, hn⟩ := next_of_ready_broken b ready h
      exact ⟨_, by rw [hn]; rfl⟩
  · intro d held rest h
    exact next_of_ready_broken b ready h

end EscapedText.Translator
