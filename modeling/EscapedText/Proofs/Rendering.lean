import EscapedText.Proofs.TextReading

/-!
Writing a text so that it reads back. Each character stands for itself or is escaped, in a style
chosen for each escape on its own: how many more `u`, and the case of each digit.
-/
namespace EscapedText

structure Style where
  extra : Nat
  upper : Fin 4 → Bool

def place (n : Fin 16) (upper : Bool) : Fin hexDigits.length where
  val := if upper then n.val + 16 else n.val
  isLt := by
    have rows : hexDigits.length = 32 := rfl
    split <;> omega

/-- The digit for `n` in the chosen row. -/
def HexDigit.ofFin (n : Fin 16) (upper : Bool) : HexDigit :=
  ⟨hexDigits.get (place n upper), List.get_mem hexDigits (place n upper)⟩

theorem value_ofFin : ∀ (n : Fin 16) (upper : Bool), (HexDigit.ofFin n upper).value = n.val := by
  decide

namespace Escape

/-- The last sixteen bits of `n`, escaped. -/
def ofNat (s : Style) (n : Nat) : Escape where
  extra := s.extra
  digits := List.ofFn fun i : Fin 4 =>
    .ofFin ⟨n / 16 ^ (3 - i.val) % 16, Nat.mod_lt _ (by decide)⟩ (s.upper i)
  four := List.length_ofFn

theorem value_ofNat (s : Style) {n : Nat} (h : n < 0x10000) : (ofNat s n).value = n := by
  simp [value, number, ofNat, List.ofFn_succ, value_ofFin]
  omega

end Escape

/-- The units of a character past the first `0x10000`. -/
def highUnit (c : Char) : Nat := 0xD800 + (c.toNat - 0x10000) / 0x400

def lowUnit (c : Char) : Nat := 0xDC00 + (c.toNat - 0x10000) % 0x400

/-- One character as it is written. -/
inductive Glyph where
  | verbatim (c : Char) (h : c ≠ '\\')
  | unit (c : Char) (h : c.toNat < 0x10000) (s : Style)
  | pair (c : Char) (h : 0x10000 ≤ c.toNat) (s r : Style)

namespace Glyph

def char : Glyph → Char
  | verbatim c _ => c
  | unit c _ _ => c
  | pair c _ _ _ => c

def text : Glyph → List Char
  | verbatim c _ => [c]
  | unit c _ s => (Escape.ofNat s c.toNat).text
  | pair c _ s r => (Escape.ofNat s (highUnit c)).text ++ (Escape.ofNat r (lowUnit c)).text

end Glyph

theorem toNat_lt (c : Char) : c.toNat < 0x110000 := by
  rcases c.valid with h | h
  · exact Nat.lt_trans h (by decide)
  · exact h.2

theorem not_surrogate (c : Char) : ¬ IsHigh c.toNat ∧ ¬ IsLow c.toNat := by
  have valid : c.toNat < 0xD800 ∨ 0xDFFF < c.toNat ∧ c.toNat < 0x110000 := c.valid
  unfold IsHigh IsLow
  omega

theorem isHigh_highUnit (c : Char) : IsHigh (highUnit c) := by
  have h := toNat_lt c
  unfold IsHigh highUnit
  omega

theorem isLow_lowUnit (c : Char) : IsLow (lowUnit c) := by
  unfold IsLow lowUnit
  omega

theorem combine_units {c : Char} (h : 0x10000 ≤ c.toNat) :
    combine (highUnit c) (lowUnit c) = c.toNat := by
  unfold combine highUnit lowUnit
  omega

theorem lt_of_isHigh {n : Nat} (h : IsHigh n) : n < 0x10000 := Nat.lt_of_le_of_lt h.2 (by decide)

theorem lt_of_isLow {n : Nat} (h : IsLow n) : n < 0x10000 := Nat.lt_of_le_of_lt h.2 (by decide)

theorem ofNatAux_toNat (c : Char) {n : Nat} (hn : n = c.toNat) (h : n.isValidChar) :
    Char.ofNatAux n h = c := by
  subst hn
  have := Char.ofNat_toNat c
  rwa [Char.ofNat, dif_pos h] at this

theorem exists_piece (g : Glyph) : ∃ p : Piece, p.text = g.text ∧ p.meaning = [g.char] := by
  cases g with
  | verbatim c h => exact ⟨.plain c h, rfl, rfl⟩
  | unit c h s =>
    have value := Escape.value_ofNat s h
    obtain ⟨high, low⟩ := not_surrogate c
    rw [← value] at high low
    exact ⟨.unit _ high low, rfl, congrArg (fun c => [c]) (ofNatAux_toNat c value _)⟩
  | pair c h s r =>
    have high := isHigh_highUnit c
    have low := isLow_lowUnit c
    have hs := Escape.value_ofNat s (lt_of_isHigh high)
    have hr := Escape.value_ofNat r (lt_of_isLow low)
    have number : combine (Escape.ofNat s (highUnit c)).value (Escape.ofNat r (lowUnit c)).value =
        c.toNat := by
      rw [hs, hr, combine_units h]
    rw [← hs] at high
    rw [← hr] at low
    exact ⟨.pair _ _ high low, rfl, congrArg (fun c => [c]) (ofNatAux_toNat c number _)⟩

theorem exists_spelling (gs : List Glyph) :
    ∃ s : Spelling, s.text = gs.flatMap Glyph.text ∧ s.meaning = gs.map Glyph.char := by
  induction gs with
  | nil => exact ⟨⟨[], false⟩, rfl, rfl⟩
  | cons g gs ih =>
    obtain ⟨p, ht, hm⟩ := exists_piece g
    obtain ⟨⟨ps, trailing⟩, hts, hms⟩ := ih
    refine ⟨⟨p :: ps, trailing⟩, ?_, ?_⟩
    · rw [Spelling.text_cons, ht, hts, List.flatMap_cons]
    · rw [Spelling.meaning_cons, hm, hms, List.map_cons, List.singleton_append]

/-- However a text is written, it reads back. -/
theorem readAll_glyphs (b : Bookmarks) (gs : List Glyph) :
    ((Translator.ofSource (TextSource.ofText (String.ofList (gs.flatMap Glyph.text)))).readAll
      b "").answer = (.ok gs.length, String.ofList (gs.map Glyph.char)) := by
  obtain ⟨s, text, meaning⟩ := exists_spelling gs
  have ready := Translator.ready_ofText (String.ofList s.text)
  rw [String.toList_ofList] at ready
  rw [← text, Translator.readAll_spelling b s ready, meaning, List.length_map,
    String.empty_append]

end EscapedText
