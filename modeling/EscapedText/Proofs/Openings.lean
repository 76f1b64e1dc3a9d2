import EscapedText.Proofs.Beginnings
import Mathlib.Data.List.DropRight

/-!
Where escapes open. A backslash with `u` behind it opens an escape just if the backslashes directly
in front of it pair off, which the text around it tells without what stands further in front. A
spelling has its escapes at just these places. And a text has a spelling if an escape stands at each
of them, with its partner if it is a surrogate.
-/
namespace EscapedText

/-- How many backslashes stand at the end. -/
def slashes (v : List Char) : Nat := (v.rtakeWhile (· = '\\')).length

/-- A backslash at `i`, a `u` behind it, and an even number of backslashes directly in front. -/
def OpensAt (v : List Char) (i : Nat) : Prop :=
  v[i]? = some '\\' ∧ v[i + 1]? = some 'u' ∧ slashes (v.take i) % 2 = 0

/-- The same in a text that stands behind `x`. -/
def Opens (x v : List Char) (i : Nat) : Prop :=
  v[i]? = some '\\' ∧ v[i + 1]? = some 'u' ∧ slashes (x ++ v.take i) % 2 = 0

/-- The same past the first part `v` of that text. -/
def OpensPast (x v w : List Char) (i : Nat) : Prop := ∃ j, i = v.length + j ∧ Opens (x ++ v) w j

section

variable {x v w u : List Char} {i : Nat}

theorem slashes_backslash (v : List Char) : slashes (v ++ ['\\']) = slashes v + 1 := by
  simp [slashes]

theorem slashes_of_ne {c : Char} (h : c ≠ '\\') (v : List Char) : slashes (v ++ [c]) = 0 := by
  simp [slashes, h]

theorem opensPast_append : OpensPast x (v ++ w) u i ↔
    ∃ j, i = v.length + j ∧ OpensPast (x ++ v) w u j := by
  constructor
  · rintro ⟨j, rfl, opens⟩
    refine ⟨w.length + j, ?_, j, rfl, ?_⟩
    · simp only [List.length_append, Nat.add_assoc]
    · simpa only [List.append_assoc] using opens
  · rintro ⟨_, rfl, j, rfl, opens⟩
    refine ⟨j, ?_, ?_⟩
    · simp only [List.length_append, Nat.add_assoc]
    · simpa only [List.append_assoc] using opens

theorem opens_cons {c : Char} : Opens x (c :: v) i ↔
    (i = 0 ∧ c = '\\' ∧ v.head? = some 'u' ∧ slashes x % 2 = 0) ∨ OpensPast x [c] v i := by
  cases i with
  | zero =>
    have apart (j : Nat) : 0 ≠ 1 + j := by omega
    simp [Opens, OpensPast, List.head?_eq_getElem?, apart]
  | succ i => simp [Opens, OpensPast, Nat.add_comm 1]

theorem opensAt_append {j : Nat} : OpensAt (x ++ v) (x.length + j) ↔ Opens x v j := by
  have behind (k : Nat) : (x ++ v)[x.length + k]? = v[k]? := by
    rw [List.getElem?_append_right (Nat.le_add_right _ k), Nat.add_sub_cancel_left]
  simp only [OpensAt, Opens, Nat.add_assoc, behind, List.take_length_add_append]

/-- Nothing opens where there is no backslash. -/
theorem opens_skip (none : '\\' ∉ v) : Opens x (v ++ w) i ↔ OpensPast x v w i := by
  induction v generalizing x i with
  | nil => simp [OpensPast]
  | cons c v ih =>
    have first : c ≠ '\\' := fun same => none (same ▸ List.mem_cons_self)
    have later : '\\' ∉ v := fun mem => none (List.mem_cons_of_mem c mem)
    have parts : c :: v = [c] ++ v := rfl
    simp only [List.cons_append, opens_cons, first, false_and, and_false, false_or]
    rw [parts, opensPast_append]
    simp only [OpensPast, ih later]

end

/-! Escapes in a text of pieces. -/

theorem hexDigit_ne_backslash (d : HexDigit) : d.char ≠ '\\' := by
  have none : hexDigits.all (· != '\\') = true := by decide
  simpa using List.all_eq_true.mp none d.char d.legal

/-- The escape `e` stands at `i` in the piece. -/
inductive Piece.HasAt : Piece → Nat → Escape → Prop where
  | unit (e : Escape) (high : ¬ IsHigh e.value) (low : ¬ IsLow e.value) :
    HasAt (.unit e high low) 0 e
  | high (e f : Escape) (high : IsHigh e.value) (low : IsLow f.value) :
    HasAt (.pair e f high low) 0 e
  | low (e f : Escape) (high : IsHigh e.value) (low : IsLow f.value) :
    HasAt (.pair e f high low) e.text.length f

/-- The escape `e` stands at `i` in the text of the pieces. -/
inductive EscapeAt : List Piece → Nat → Escape → Prop where
  | here {p : Piece} {i : Nat} {e : Escape} (h : p.HasAt i e) (ps : List Piece) :
    EscapeAt (p :: ps) i e
  | later (p : Piece) {ps : List Piece} {i : Nat} {e : Escape} (h : EscapeAt ps i e) :
    EscapeAt (p :: ps) (p.text.length + i) e

section

variable {x v w : List Char} {i : Nat}

theorem Escape.length_text_pos (e : Escape) : 0 < e.text.length := Nat.succ_pos _

/-- An escape has one backslash, at its front. -/
theorem Escape.exists_text (e : Escape) :
    ∃ r d, e.text = ['\\'] ++ ('u' :: r ++ [HexDigit.char d]) ∧ '\\' ∉ 'u' :: r ++ [d.char] := by
  obtain ⟨ds, d, parts⟩ : ∃ ds d, e.digits = ds ++ [d] :=
    ⟨_, _, (List.dropLast_concat_getLast e.digits_ne_nil).symm⟩
  have digit (d : HexDigit) : '\\' ≠ d.char := (hexDigit_ne_backslash d).symm
  refine ⟨List.replicate e.extra 'u' ++ ds.map HexDigit.char, d, ?_, ?_⟩
  · simp [text, opening, parts, List.replicate_succ]
  · simp [List.mem_replicate, digit, (digit _).symm]

theorem slashes_escape (x : List Char) (e : Escape) : slashes (x ++ e.text) = 0 := by
  obtain ⟨r, d, text, -⟩ := e.exists_text
  have parts : x ++ e.text = (x ++ '\\' :: 'u' :: r) ++ [d.char] := by simp [text]
  rw [parts]
  exact slashes_of_ne (hexDigit_ne_backslash d) _

theorem opens_escape (e : Escape) (even : slashes x % 2 = 0) :
    Opens x (e.text ++ w) i ↔ i = 0 ∨ OpensPast x e.text w i := by
  obtain ⟨r, d, text, none⟩ := e.exists_text
  rw [text, opensPast_append, List.append_assoc, List.singleton_append, opens_cons]
  apply or_congr
  · simp [even]
  · exact exists_congr fun j => and_congr_right fun _ => opens_skip none

namespace Piece

/-- Behind a piece the backslashes pair off if they did in front of it. -/
theorem slashes_text (p : Piece) (even : slashes x % 2 = 0) : slashes (x ++ p.text) % 2 = 0 := by
  cases p with
  | plain c h => simp [text, slashes_of_ne h]
  | literal c h =>
    have parts : x ++ text (literal c h) = x ++ ['\\'] ++ [c] := by simp [text]
    rw [parts]
    by_cases slash : c = '\\'
    · rw [slash, slashes_backslash, slashes_backslash]
      omega
    · rw [slashes_of_ne slash]
  | unit e high low => simp [text, slashes_escape]
  | pair e f high low => simp [text, ← List.append_assoc, slashes_escape]

theorem opens_text (p : Piece) (even : slashes x % 2 = 0) :
    Opens x (p.text ++ w) i ↔ (∃ e, p.HasAt i e) ∨ OpensPast x p.text w i := by
  cases p with
  | plain c h =>
    have none : '\\' ∉ [c] := by simpa using h.symm
    have nowhere : ¬ ∃ e, (plain c h).HasAt i e := by rintro ⟨e, ⟨⟩⟩
    simp only [nowhere, false_or]
    exact opens_skip none
  | literal c h =>
    -- The backslash opens nothing, and it keeps `c` from doing so.
    have odd : slashes (x ++ ['\\']) % 2 ≠ 0 := by
      rw [slashes_backslash]
      omega
    have nowhere : ¬ ∃ e, (literal c h).HasAt i e := by rintro ⟨e, ⟨⟩⟩
    have parts : text (literal c h) = ['\\'] ++ [c] := rfl
    rw [parts, opensPast_append]
    simp [nowhere, opens_cons, h, odd, OpensPast]
  | unit e high low =>
    have here : (∃ f, (unit e high low).HasAt i f) ↔ i = 0 := by
      constructor
      · rintro ⟨f, ⟨⟩⟩
        rfl
      · rintro rfl
        exact ⟨e, .unit e high low⟩
    rw [here]
    exact opens_escape e even
  | pair e f high low =>
    have here : (∃ g, (pair e f high low).HasAt i g) ↔ i = 0 ∨ i = e.text.length := by
      constructor
      · rintro ⟨g, has⟩
        cases has with
        | high => exact .inl rfl
        | low => exact .inr rfl
      · rintro (rfl | rfl)
        · exact ⟨e, .high e f high low⟩
        · exact ⟨f, .low e f high low⟩
    have even' : slashes (x ++ e.text) % 2 = 0 := by rw [slashes_escape]
    have second : OpensPast x e.text (f.text ++ w) i ↔
        i = e.text.length ∨ OpensPast x (e.text ++ f.text) w i := by
      rw [opensPast_append]
      simp only [OpensPast, opens_escape f even', and_or_left, exists_or]
      simp
    rw [here, or_assoc, text, List.append_assoc, opens_escape e even, second]

end Piece

end

namespace EscapeAt

variable {p : Piece} {ps : List Piece} {i : Nat} {e : Escape}

theorem cons_iff : EscapeAt (p :: ps) i e ↔
    p.HasAt i e ∨ ∃ j, i = p.text.length + j ∧ EscapeAt ps j e := by
  constructor
  · intro h
    cases h with
    | here has ps => exact .inl has
    | later p h => exact .inr ⟨_, rfl, h⟩
  · rintro (has | ⟨j, rfl, h⟩)
    · exact .here has ps
    · exact .later p h

theorem parts (h : EscapeAt ps i e) :
    ∃ v r, ps.flatMap Piece.text = v ++ (e.text ++ r) ∧ i = v.length := by
  induction h with
  | here has ps =>
    cases has with
    | unit e high low => exact ⟨[], ps.flatMap Piece.text, rfl, rfl⟩
    | high e f high low =>
      exact ⟨[], f.text ++ ps.flatMap Piece.text, List.append_assoc .., rfl⟩
    | low e f high low => exact ⟨e.text, ps.flatMap Piece.text, List.append_assoc .., rfl⟩
  | later p h ih =>
    obtain ⟨v, r, text, rfl⟩ := ih
    refine ⟨p.text ++ v, r, ?_, List.length_append.symm⟩
    simp only [List.flatMap_cons, text, List.append_assoc]

theorem low_behind (h : EscapeAt ps i e) (first : IsHigh e.value) :
    ∃ f : Escape, IsLow f.value ∧ EscapeAt ps (i + e.text.length) f := by
  induction h with
  | here has ps =>
    cases has with
    | unit _ high low => exact absurd first high
    | high e f high low =>
      rw [Nat.zero_add]
      exact ⟨f, low, .here (.low _ f high low) ps⟩
    | low d _ high low => exact absurd low (not_isLow_of_isHigh first)
  | later p h ih =>
    obtain ⟨f, low, behind⟩ := ih first
    rw [Nat.add_assoc]
    exact ⟨f, low, .later p behind⟩

theorem high_before (h : EscapeAt ps i e) (second : IsLow e.value) :
    ∃ j f, EscapeAt ps j f ∧ IsHigh f.value ∧ j + f.text.length = i := by
  induction h with
  | here has ps =>
    cases has with
    | unit _ high low => exact absurd second low
    | high _ f high low => exact absurd second (not_isLow_of_isHigh high)
    | low d f high low => exact ⟨0, d, .here (.high d _ high low) ps, high, Nat.zero_add _⟩
  | later p h ih =>
    obtain ⟨j, f, before, high, meets⟩ := ih second
    refine ⟨p.text.length + j, f, .later p before, high, ?_⟩
    rw [Nat.add_assoc, meets]

end EscapeAt

section

variable {x w : List Char} {i : Nat}

theorem slashes_pieces (ps : List Piece) (even : slashes x % 2 = 0) :
    slashes (x ++ ps.flatMap Piece.text) % 2 = 0 := by
  induction ps generalizing x with
  | nil => simpa using even
  | cons p ps ih =>
    rw [List.flatMap_cons, ← List.append_assoc]
    exact ih (p.slashes_text even)

theorem opens_pieces (ps : List Piece) (even : slashes x % 2 = 0) :
    Opens x (ps.flatMap Piece.text ++ w) i ↔
      (∃ e, EscapeAt ps i e) ∨ OpensPast x (ps.flatMap Piece.text) w i := by
  induction ps generalizing x i with
  | nil =>
    have nowhere : ¬ ∃ e, EscapeAt [] i e := by rintro ⟨e, ⟨⟩⟩
    simp [nowhere, OpensPast]
  | cons p ps ih =>
    rw [List.flatMap_cons, List.append_assoc, p.opens_text even, opensPast_append]
    have rest : OpensPast x p.text (ps.flatMap Piece.text ++ w) i ↔
        (∃ j, i = p.text.length + j ∧ ∃ e, EscapeAt ps j e) ∨
          ∃ j, i = p.text.length + j ∧ OpensPast (x ++ p.text) (ps.flatMap Piece.text) w j := by
      simp only [OpensPast, ih (p.slashes_text even), and_or_left, exists_or]
    have first : (∃ e, EscapeAt (p :: ps) i e) ↔
        (∃ e, p.HasAt i e) ∨ ∃ j, i = p.text.length + j ∧ ∃ e, EscapeAt ps j e := by
      simp only [EscapeAt.cons_iff, exists_or, ← exists_and_left]
      rw [exists_comm]
    rw [rest, first, or_assoc]

end

namespace Spelling

theorem opens_iff (s : Spelling) (i : Nat) : OpensAt s.text i ↔ ∃ e, EscapeAt s.pieces i e := by
  have even : slashes [] % 2 = 0 := rfl
  have nowhere (j : Nat) : ¬ Opens ([] ++ s.pieces.flatMap Piece.text) (tail s.trailing) j := by
    cases s.trailing <;> simp [Opens, tail]
  have whole : OpensAt s.text i ↔ (∃ e, EscapeAt s.pieces i e) ∨
      OpensPast [] (s.pieces.flatMap Piece.text) (tail s.trailing) i := opens_pieces s.pieces even
  simp only [whole, OpensPast, nowhere, and_false, exists_false, or_false]

end Spelling

/-! Texts with an escape at every opening. -/

def StandsAt (v : List Char) (e : Escape) (i : Nat) : Prop := e.text <+: v.drop i

/-- At every opening stands an escape. One of a high surrogate has one of a low surrogate right
behind it, and that has one of a high surrogate right in front. -/
structure WellFormed (v : List Char) : Prop where
  stands : ∀ i, OpensAt v i → ∃ e, StandsAt v e i
  high : ∀ i e, OpensAt v i → StandsAt v e i → IsHigh e.value →
    ∃ f : Escape, IsLow f.value ∧ StandsAt v f (i + e.text.length)
  low : ∀ i e, OpensAt v i → StandsAt v e i → IsLow e.value →
    ∃ j f, OpensAt v j ∧ StandsAt v f j ∧ IsHigh f.value ∧ j + f.text.length = i

theorem StandsAt.unique {v : List Char} {e f : Escape} {i : Nat} (h : StandsAt v e i)
    (h' : StandsAt v f i) : e = f := by
  obtain ⟨r, front⟩ := h
  obtain ⟨r', front'⟩ := h'
  exact (Escape.text_append_inj (front.trans front'.symm)).1

theorem EscapeAt.stands {ps : List Piece} {i : Nat} {e : Escape} (h : EscapeAt ps i e)
    (w : List Char) : StandsAt (ps.flatMap Piece.text ++ w) e i := by
  obtain ⟨v, r, text, rfl⟩ := h.parts
  refine ⟨r ++ w, ?_⟩
  simp [text]

theorem wellFormed_spelling (s : Spelling) : WellFormed s.text := by
  have escaped {i : Nat} {e : Escape} (opens : OpensAt s.text i) (stands : StandsAt s.text e i) :
      EscapeAt s.pieces i e := by
    obtain ⟨f, at_⟩ := (s.opens_iff i).mp opens
    obtain rfl := (at_.stands _).unique stands
    exact at_
  constructor
  · intro i opens
    obtain ⟨e, found⟩ := (s.opens_iff i).mp opens
    exact ⟨e, found.stands _⟩
  · intro i e opens stands high
    obtain ⟨f, low, behind⟩ := (escaped opens stands).low_behind high
    exact ⟨f, low, behind.stands _⟩
  · intro i e opens stands low
    obtain ⟨j, f, before, high, meets⟩ := (escaped opens stands).high_before low
    exact ⟨j, f, (s.opens_iff j).mpr ⟨f, before⟩, before.stands _, high, meets⟩

/-- No escape is the beginning of one that breaks off. -/
theorem Stub.not_escape {s : Stub} {e : Escape} {v w : List Char} (ends : s.EndsAt w) :
    e.text ++ v ≠ s.text ++ w := by
  intro same
  have bare : (s.digits.map HexDigit.char ++ w).head? ≠ some 'u' := by
    by_cases none : s.digits = []
    · simpa [none] using ends.1 none
    · exact digits_head_ne_u none w
  simp only [Escape.text, text, opening, List.cons_append, List.append_assoc] at same
  obtain ⟨-, digits⟩ := replicate_append_inj (digits_head_ne_u e.digits_ne_nil v) bare
    (List.cons.inj same).2
  -- The digit of the escape behind those of the stub would go on with it.
  have few : s.digits.length < e.digits.length := by
    rw [e.four]
    exact s.few
  obtain ⟨d, ds, more⟩ := List.exists_cons_of_length_pos (l := e.digits.drop s.digits.length)
    (by simpa using few)
  rw [← List.take_append_drop s.digits.length e.digits, more, List.map_append,
    List.append_assoc] at digits
  have lengths : ((e.digits.take s.digits.length).map HexDigit.char).length =
      (s.digits.map HexDigit.char).length := by
    simp only [List.length_map, List.length_take]
    omega
  obtain ⟨-, rest⟩ := List.append_inj digits lengths
  apply ends.2 d
  rw [← rest]
  rfl

theorem Broken.opens {v : List Char} {d : Defect} {held : Option Item} {rest : List Char}
    (h : Broken v d held rest) : ∃ w, v = '\\' :: 'u' :: w := by
  cases h <;> exact ⟨_, rfl⟩

theorem opensAt_of_broken (ps : List Piece) {w : List Char} {d : Defect} {held : Option Item}
    {rest : List Char} (broken : Broken w d held rest) :
    OpensAt (ps.flatMap Piece.text ++ w) (ps.flatMap Piece.text).length := by
  have nil : slashes [] % 2 = 0 := rfl
  have even : slashes (ps.flatMap Piece.text) % 2 = 0 := slashes_pieces ps nil
  obtain ⟨w', rfl⟩ := broken.opens
  simp [OpensAt, even]

theorem spelled_of_wellFormed {v : List Char} (h : WellFormed v) :
    ∃ s : Spelling, s.text = v := by
  rcases spelled_or_broken v with spelled | ⟨ps, w, d, held, rest, rfl, broken⟩
  · exact spelled
  exfalso
  let y := ps.flatMap Piece.text
  have nil : slashes [] % 2 = 0 := rfl
  have opens : OpensAt (y ++ w) y.length := opensAt_of_broken ps broken
  have here (e : Escape) : StandsAt (y ++ w) e y.length ↔ e.text <+: w := by
    simp [StandsAt]
  have behind (e f : Escape) (r : List Char) (parts : w = e.text ++ r) :
      StandsAt (y ++ w) f (y.length + e.text.length) ↔ f.text <+: r := by
    simp [StandsAt, parts]
  -- A high surrogate with its partner behind it is not broken.
  have paired (e : Escape) (r : List Char) (parts : w = e.text ++ r) (high : IsHigh e.value) :
      ∃ f z, IsLow (Escape.value f) ∧ f.text ++ z = r := by
    obtain ⟨f, low, stands⟩ := h.high y.length e opens ((here e).mpr ⟨r, parts.symm⟩) high
    obtain ⟨z, front⟩ := (behind e f r parts).mp stands
    exact ⟨f, z, low, front⟩
  cases broken with
  | short s ends =>
    obtain ⟨e, stands⟩ := h.stands y.length opens
    obtain ⟨z, front⟩ := (here e).mp stands
    exact Stub.not_escape ends front
  | low e _ low =>
    obtain ⟨j, f, opened, stands, high, meets⟩ :=
      h.low y.length e opens ((here e).mpr ⟨rest, rfl⟩) low
    rcases (opens_pieces ps nil).mp opened with ⟨g, found⟩ | ⟨k, past, -⟩
    · -- The high surrogate in front has its partner among the pieces already.
      obtain rfl := (found.stands _).unique stands
      obtain ⟨g, -, behind⟩ := found.low_behind high
      rw [meets] at behind
      obtain ⟨v, r, parts, length⟩ := behind.parts
      have length : (ps.flatMap Piece.text).length = v.length := length
      have lengths := congrArg List.length parts
      have some := g.length_text_pos
      simp only [List.length_append] at lengths
      omega
    · have past : j = y.length + k := past
      have some := f.length_text_pos
      omega
  | alone e high none =>
    obtain ⟨f, z, -, rfl⟩ := paired e _ rfl high
    exact none rfl
  | slash e high none =>
    obtain ⟨f, z, -, front⟩ := paired e _ rfl high
    exact none (by rw [← (List.cons.inj front).2]; rfl)
  | shortLow e s high ends =>
    obtain ⟨f, z, -, front⟩ := paired e _ rfl high
    exact Stub.not_escape ends front
  | unit e f r high _ notLow =>
    obtain ⟨g, z, low, front⟩ := paired e _ rfl high
    obtain ⟨rfl, -⟩ := Escape.text_append_inj front
    exact notLow low
  | high e f r high high' =>
    obtain ⟨g, z, low, front⟩ := paired e _ rfl high
    obtain ⟨rfl, -⟩ := Escape.text_append_inj front
    exact not_isLow_of_isHigh high' low

theorem spelled_iff_wellFormed (v : List Char) : (∃ s : Spelling, s.text = v) ↔ WellFormed v := by
  constructor
  · rintro ⟨s, rfl⟩
    exact wellFormed_spelling s
  · exact spelled_of_wellFormed

/-! Texts that mean themselves. -/

theorem Piece.meaning_cases (p : Piece) :
    (p.meaning = p.text ∧ ∀ i e, ¬ p.HasAt i e) ∨
      p.meaning.length < p.text.length ∧ ∃ e, p.HasAt 0 e := by
  have long (e : Escape) : 1 < e.text.length := by simp [Escape.text, opening]
  cases p with
  | plain c h | literal c h =>
    refine .inl ⟨rfl, ?_⟩
    rintro i e ⟨⟩
  | unit e high low => exact .inr ⟨long e, e, .unit e high low⟩
  | pair e f high low =>
    refine .inr ⟨?_, e, .high e f high low⟩
    have one := long e
    simp only [meaning, text, List.length_append, List.length_singleton]
    omega

theorem length_meaning_le (ps : List Piece) :
    (ps.flatMap Piece.meaning).length ≤ (ps.flatMap Piece.text).length := by
  induction ps with
  | nil => exact Nat.le_refl 0
  | cons p ps ih =>
    have first : p.meaning.length ≤ p.text.length := by
      rcases p.meaning_cases with ⟨same, -⟩ | ⟨shorter, -⟩
      · rw [same]
      · exact Nat.le_of_lt shorter
    simp only [List.flatMap_cons, List.length_append]
    omega

/-- Without an escape a text means itself, and with one it means something shorter. -/
theorem meaning_eq_or_lt (ps : List Piece) :
    (ps.flatMap Piece.meaning = ps.flatMap Piece.text ∧ ∀ i e, ¬ EscapeAt ps i e) ∨
      (ps.flatMap Piece.meaning).length < (ps.flatMap Piece.text).length ∧
        ∃ i e, EscapeAt ps i e := by
  induction ps with
  | nil =>
    refine .inl ⟨rfl, ?_⟩
    rintro i e ⟨⟩
  | cons p ps ih =>
    rcases p.meaning_cases with ⟨same, none⟩ | ⟨shorter, e, has⟩
    · rcases ih with ⟨same', none'⟩ | ⟨shorter, i, e, found⟩
      · refine .inl ⟨by simp [same, same'], ?_⟩
        intro i e found
        cases found with
        | here has => exact none _ _ has
        | later p found => exact none' _ _ found
      · refine .inr ⟨?_, _, e, .later p found⟩
        simp only [List.flatMap_cons, List.length_append, same]
        omega
    · have others := length_meaning_le ps
      refine .inr ⟨?_, 0, e, .here has ps⟩
      simp only [List.flatMap_cons, List.length_append]
      omega

theorem Spelling.meaning_eq_text_iff (s : Spelling) :
    s.meaning = s.text ↔ ∀ i, ¬ OpensAt s.text i := by
  have opens (i : Nat) : OpensAt s.text i ↔ ∃ e, EscapeAt s.pieces i e := s.opens_iff i
  rcases meaning_eq_or_lt s.pieces with ⟨same, none⟩ | ⟨shorter, i, e, found⟩
  · have whole : s.meaning = s.text := by simp [meaning, text, same]
    refine iff_of_true whole ?_
    intro i found
    obtain ⟨e, found⟩ := (opens i).mp found
    exact none i e found
  · have unlike : s.meaning ≠ s.text := by
      intro same
      have lengths := congrArg List.length same
      simp only [meaning, text, List.length_append] at lengths
      omega
    exact iff_of_false unlike fun none => none i ((opens i).mpr ⟨e, found⟩)

theorem wellFormed_of_none {v : List Char} (none : ∀ i, ¬ OpensAt v i) : WellFormed v where
  stands i opens := absurd opens (none i)
  high i _ opens := absurd opens (none i)
  low i _ opens := absurd opens (none i)

theorem not_opensAt {v : List Char} (absent : '\\' ∉ v ∨ 'u' ∉ v) (i : Nat) : ¬ OpensAt v i := by
  rintro ⟨slash, u, -⟩
  rcases absent with none | none
  · exact none (List.mem_of_getElem? slash)
  · exact none (List.mem_of_getElem? u)

end EscapedText
