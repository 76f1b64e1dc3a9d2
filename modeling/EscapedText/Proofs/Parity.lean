import EscapedText.Proofs.Openings
import EscapedText.Proofs.TextReading

/-!
Reading by parity. A translator pairs backslashes as it comes to them and counts none. Still it
decodes an escape just where one opens, as long as nothing is refused; nothing is refused if the
text is well-formed at its openings; and a text without any comes out as it is.
-/
namespace EscapedText

theorem Piece.HasAt.decoded {p : Piece} {i : Nat} {e : Escape} (h : p.HasAt i e) :
    ∃ c, p.meaning = [c] ∧ p.outcome = .decoded c := by
  cases h with
  | unit | high | low => exact ⟨_, rfl, rfl⟩

namespace Translator

/-- The next read of `t`, which has `v` behind it, takes a piece with an escape at `i` off the text,
and answers what the piece means. -/
def DecodesAt (b : Bookmarks) (t : Translator TextSource) (v : List Char) (i : Nat) : Prop :=
  ∃ (p : Piece) (c : Char) (j : Nat) (e : Escape),
    t.source.unread = p.text ++ (t.next b).state.source.unread ∧ p.HasAt j e ∧
    i = v.length + j ∧ p.meaning = [c] ∧ (t.next b).answer = .ok (.char c) ∧
    (t.next b).events = #[.decoded c (t.next b).state.position]

/-- Some read of the text decodes the escape at `i`. -/
def DecodedAt (b : Bookmarks) (whole : List Char) (t : Translator TextSource) (i : Nat) : Prop :=
  ∃ n v, whole = v ++ (t.reads (List.replicate n b)).2.source.unread ∧
    DecodesAt b (t.reads (List.replicate n b)).2 v i

/-- No read fails. -/
def Flawless (b : Bookmarks) (t : Translator TextSource) : Prop :=
  ∀ n, ∀ a ∈ (t.reads (List.replicate n b)).1, ∃ i, a = .ok i

/-- Between two reads of the text, of which `v` is taken and `s` to come. The backslashes at the end
of `v` pair off unless they are the end of all. -/
structure Amid (whole : List Char) (t : Translator TextSource) (v : List Char) (s : Spelling) :
    Prop where
  opened : t.closed = false
  parts : whole = v ++ s.text
  ahead : t.source.unread = s.text
  even : s.pieces ≠ [] → slashes v % 2 = 0

variable {whole v w : List Char} {t u : Translator TextSource} {s : Spelling} {i : Nat}

theorem amid_next (b : Bookmarks) (h : Amid whole t v s) :
    (∃ i, (t.next b).answer = .ok i) ∧ ∃ v' s', Amid whole (t.next b).state v' s' := by
  obtain ⟨opened, parts, ahead, even⟩ := h
  -- A held item takes nothing of the text, so only a scan moves on.
  cases held : t.held with
  | some i =>
    rw [next_of_held b opened held]
    exact ⟨⟨i, rfl⟩, v, s, opened, parts, ahead, even⟩
  | none =>
    obtain ⟨source, used, -, -, unread, turn⟩ := next_of_ready b ⟨opened, held, ahead⟩
    obtain ⟨ps, trailing⟩ := s
    rw [turn]
    cases ps with
    | nil =>
      cases trailing with
      | false => exact ⟨⟨.ended, rfl⟩, v, ⟨[], false⟩, opened, parts, unread, even⟩
      | true =>
        have whole : whole = v ++ ['\\'] ++ [] := by simpa [Spelling.text, Spelling.tail] using parts
        have last : [] ≠ ([] : List Piece) → slashes (v ++ ['\\']) % 2 = 0 := absurd rfl
        exact ⟨⟨.char '\\', rfl⟩, v ++ ['\\'], ⟨[], false⟩, opened, whole, unread, last⟩
    | cons p ps =>
      rw [Spelling.text_cons] at parts unread ⊢
      rw [Scan.through_piece] at unread ⊢
      have whole : whole = v ++ p.text ++ Spelling.text ⟨ps, trailing⟩ := by simpa using parts
      have even' := p.slashes_text (even (List.cons_ne_nil p ps))
      cases p with
      | plain | literal | unit | pair =>
        exact ⟨⟨_, rfl⟩, _, ⟨ps, trailing⟩, opened, whole, unread, fun _ => even'⟩

theorem amid_reads (b : Bookmarks) (n : Nat) (h : Amid whole t v s) :
    (∀ a ∈ (t.reads (List.replicate n b)).1, ∃ i, a = .ok i) ∧
      ∃ v' s', Amid whole (t.reads (List.replicate n b)).2 v' s' := by
  induction n generalizing t v s with
  | zero => exact ⟨List.forall_mem_nil _, v, s, h⟩
  | succ n ih =>
    obtain ⟨answer, v', s', later⟩ := amid_next b h
    obtain ⟨answers, behind⟩ := ih later
    exact ⟨List.forall_mem_cons.mpr ⟨answer, answers⟩, behind⟩

theorem amid_ofText (text : String) (hs : s.text = text.toList) :
    Amid text.toList (ofSource (.ofText text)) [] s := by
  obtain ⟨opened, -, ahead⟩ := ready_ofText text
  exact ⟨opened, hs.symm, ahead.trans hs.symm, fun _ => rfl⟩

theorem opensAt_of_decodesAt {b : Bookmarks} (h : Amid whole t v s) (decodes : DecodesAt b t w i)
    (taken : whole = w ++ t.source.unread) : OpensAt whole i := by
  obtain ⟨p, c, j, e, piece, has, rfl, -⟩ := decodes
  obtain ⟨opened, parts, ahead, even⟩ := h
  obtain rfl : v = w := by
    rw [taken, ahead] at parts
    exact (List.append_cancel_right parts).symm
  rw [ahead] at piece
  obtain ⟨ps, trailing⟩ := s
  cases ps with
  | nil => exact absurd piece.symm (p.text_append_ne_tail _ trailing)
  | cons q qs =>
    rw [Spelling.text_cons] at piece parts
    obtain ⟨rfl, -⟩ := Piece.text_append_inj piece
    rw [parts]
    apply opensAt_append.mpr
    exact (q.opens_text (even (List.cons_ne_nil q qs))).mpr (.inl ⟨e, has⟩)

theorem decodesAt_of_has (b : Bookmarks) {p : Piece} {j : Nat} {e : Escape}
    (h : Ready t (p.text ++ w)) (has : p.HasAt j e) (v : List Char) :
    DecodesAt b t v (v.length + j) := by
  obtain ⟨source, used, -, -, unread, turn⟩ := next_of_ready b h
  rw [Scan.through_piece] at unread turn
  obtain ⟨c, meaning, outcome⟩ := has.decoded
  rw [outcome] at turn
  refine ⟨p, c, j, e, ?_, has, rfl, meaning, ?_, ?_⟩
  · rw [h.ahead, turn]
    exact congrArg (p.text ++ ·) unread.symm
  · rw [turn]
    rfl
  · rw [turn]
    rfl

theorem decodedAt_of_yields {b : Bookmarks} {cs : List Char} (yields : Yields b t cs u)
    (decoded : DecodedAt b whole u i) : DecodedAt b whole t i := by
  obtain ⟨n, v, taken, decodes⟩ := decoded
  have reads : (t.reads (List.replicate (cs.length + n) b)).2 =
      (u.reads (List.replicate n b)).2 := by
    have first : t.reads (List.replicate cs.length b) = (answers cs, u) := yields
    simp only [← List.replicate_append_replicate, reads_append, first]
  rw [← reads] at taken decodes
  exact ⟨cs.length + n, v, taken, decodes⟩

theorem decodedAt_of_opens (b : Bookmarks) {j : Nat} (h : Ready t s.text)
    (parts : whole = v ++ s.text) (even : slashes v % 2 = 0) (opens : Opens v s.text j) :
    DecodedAt b whole t (v.length + j) := by
  obtain ⟨ps, trailing⟩ := s
  induction ps generalizing t v j with
  | nil => cases trailing <;> simp [Spelling.text, Spelling.tail, Opens] at opens
  | cons p ps ih =>
    rw [Spelling.text_cons] at h parts opens
    -- The next read meets the opening, or the reads of `p` leave it ahead.
    rcases (p.opens_text even).mp opens with ⟨e, has⟩ | ⟨k, rfl, behind⟩
    · exact ⟨0, v, parts.trans (congrArg (v ++ ·) h.ahead.symm), decodesAt_of_has b h has v⟩
    · obtain ⟨u, yields, later⟩ := yields_piece b h
      have whole : whole = v ++ p.text ++ Spelling.text ⟨ps, trailing⟩ := by simpa using parts
      have decoded := ih (p.slashes_text even) later whole behind
      rw [List.length_append, Nat.add_assoc] at decoded
      exact decodedAt_of_yields yields decoded

theorem flawless_iff_spelled (b : Bookmarks) (text : String) :
    Flawless b (ofSource (.ofText text)) ↔ ∃ s : Spelling, s.text = text.toList := by
  constructor
  · intro flawless
    rcases spelled_or_broken text.toList with spelled | ⟨ps, w, d, held, rest, parts, broken⟩
    · exact spelled
    · have ready := ready_ofText text
      rw [parts] at ready
      obtain ⟨u, p, yields, refused⟩ := refused_of_broken b ps broken ready
      generalize ps.flatMap Piece.meaning = cs at yields
      have first : (ofSource (TextSource.ofText text)).reads (List.replicate cs.length b) =
          (answers cs, u) := yields
      have failed : Except.error (Failure.refused (.malformed p d)) ∈ ((ofSource (TextSource.ofText text)).reads
          (List.replicate (cs.length + 1) b)).1 := by
        simp [← List.replicate_append_replicate, reads_append, first, Translator.reads, refused]
      obtain ⟨i, fine⟩ := flawless _ _ failed
      contradiction
  · rintro ⟨s, hs⟩ n
    exact (amid_reads b n (amid_ofText text hs)).1

theorem readAll_eq_iff (b : Bookmarks) (text : String) :
    ((ofSource (TextSource.ofText text)).readAll b "").answer.2 = text ↔
      ∀ i, ¬ OpensAt text.toList i := by
  have ready := ready_ofText text
  rcases spelled_or_broken text.toList with ⟨s, hs⟩ | ⟨ps, w, d, held, rest, parts, broken⟩
  · rw [← hs] at ready
    rw [readAll_spelling b s ready, String.empty_append, ← hs, ← s.meaning_eq_text_iff, hs,
      ← String.toList_inj, String.toList_ofList]
  · have opens := opensAt_of_broken ps broken
    rw [← parts] at opens
    refine iff_of_false ?_ fun none => none _ opens
    rw [parts] at ready
    obtain ⟨u, p, yields, refused⟩ := refused_of_broken b ps broken ready
    rw [readAll_of_error yields refused, String.empty_append]
    -- What comes out in front of the refusal is shorter than the text.
    intro same
    have lengths := congrArg (fun out : String => out.toList.length) same
    obtain ⟨w', rfl⟩ := broken.opens
    have shorter := length_meaning_le ps
    simp only [String.toList_ofList, parts, List.length_append, List.length_cons] at lengths
    omega

theorem readAll_of_none (b : Bookmarks) {text : String}
    (none : ∀ i, ¬ OpensAt text.toList i) :
    ((ofSource (TextSource.ofText text)).readAll b "").answer = (.ok text.length, text) := by
  obtain ⟨s, hs⟩ := spelled_of_wellFormed (wellFormed_of_none none)
  have ready := ready_ofText text
  rw [← hs] at ready none
  have meaning : s.meaning = text.toList := (s.meaning_eq_text_iff.mpr none).trans hs
  rw [readAll_spelling b s ready, meaning, String.empty_append, String.ofList_toList,
    String.length_toList]

/-- Where the backslashes in front pair off, and only there, a backslash with `u` behind it is
decoded as an escape, if no read fails. None fails if the text is well-formed at these places. And
the text comes out as it is if there are none, for one if it has no backslash or no `u`. -/
theorem decodes_by_parity (b : Bookmarks) (text : String) :
    let t := ofSource (TextSource.ofText text)
    (Flawless b t → ∀ i, DecodedAt b text.toList t i ↔ OpensAt text.toList i) ∧
    (Flawless b t ↔ WellFormed text.toList) ∧
    ((t.readAll b "").answer.2 = text ↔ ∀ i, ¬ OpensAt text.toList i) ∧
    ((∀ i, ¬ OpensAt text.toList i) → (t.readAll b "").answer = (.ok text.length, text)) ∧
    ('\\' ∉ text.toList ∨ 'u' ∉ text.toList →
      (t.readAll b "").answer = (.ok text.length, text)) := by
  intro t
  refine ⟨?_, ?_, readAll_eq_iff b text, readAll_of_none b, ?_⟩
  · intro flawless i
    obtain ⟨s, hs⟩ := (flawless_iff_spelled b text).mp flawless
    constructor
    · rintro ⟨n, v, taken, decodes⟩
      obtain ⟨-, v', s', amid⟩ := amid_reads b n (amid_ofText text hs)
      exact opensAt_of_decodesAt amid decodes taken
    · intro opens
      have ready := ready_ofText text
      rw [← hs] at ready
      have nil : slashes [] % 2 = 0 := rfl
      have opened : Opens [] s.text i := hs ▸ opens
      have decoded := decodedAt_of_opens b ready hs.symm nil opened
      rw [List.length_nil, Nat.zero_add] at decoded
      exact decoded
  · rw [flawless_iff_spelled, spelled_iff_wellFormed]
  · intro absent
    exact readAll_of_none b (not_opensAt absent)

/-- Two backslashes, and an escape. -/
def slashed : Spelling where
  pieces := [.literal '\\' (by decide), .unit
    ⟨0, [⟨'2', by decide⟩, ⟨'2', by decide⟩, ⟨'6', by decide⟩, ⟨'5', by decide⟩], rfl⟩
    (by unfold IsHigh; decide) (by unfold IsLow; decide)]
  trailing := false

/-- The third backslash opens an escape, the second one does not. -/
theorem slashed_decodes_by_parity :
    let t := ofSource (TextSource.ofText "\\\\\\u2265")
    let v := "\\\\\\u2265".toList
    Flawless {} t ∧ DecodedAt {} v t 2 ∧ ¬ DecodedAt {} v t 1 := by
  intro t v
  have flawless : Flawless {} t := (flawless_iff_spelled {} _).mpr ⟨slashed, rfl⟩
  obtain ⟨decoded, -⟩ := decodes_by_parity {} "\\\\\\u2265"
  refine ⟨flawless, (decoded flawless 2).mpr ⟨rfl, rfl, rfl⟩, ?_⟩
  intro opens
  obtain ⟨-, u, -⟩ := (decoded flawless 1).mp opens
  contradiction

end Translator
end EscapedText
