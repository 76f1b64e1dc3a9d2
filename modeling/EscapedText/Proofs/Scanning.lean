import EscapedText.Escape.Scan
import EscapedText.Proofs.Beginnings

/-!
What a scan makes of a whole text. On a piece it settles exactly at the end of the piece, on a
broken beginning at the item that breaks it, and every text begins in one of these ways. So the
scanner and the grammar agree.
-/
namespace EscapedText

/-- What the end of the input settles. -/
def Scan.final : Scan → Outcome
  | .fresh => .plain .ended none
  | .slash high => literal high .ended
  | .digits _ _ _ => .broken (.missingDigit .ended) (some .ended)
  | .alone high => .broken (.unpaired high) (some .ended)

/-- The outcome over a text that ends, and the text behind the item that settled it. -/
def Scan.through (s : Scan) : List Char → Outcome × List Char
  | [] => (s.final, [])
  | c :: v =>
    match s.feed (.char c) with
    | .more s' => s'.through v
    | .settled o => (o, v)

def Scan.Step.through : Scan.Step → List Char → Outcome × List Char
  | .more s, v => s.through v
  | .settled o, v => (o, v)

namespace Scan

theorem feed_ended_eq_final (s : Scan) : s.feed .ended = .settled s.final := by
  cases s <;> simp [feed, final, digit?]

theorem through_cons (s : Scan) (c : Char) (v : List Char) :
    s.through (c :: v) = (s.feed (.char c)).through v := by
  rw [through]
  cases s.feed (.char c) <;> rfl

/-- Characters and the end of the input settle a scan alike. -/
theorem through_of_settled {s : Scan} {v : List Char} {o : Outcome}
    (h : s.feed (.first v) = .settled o) : s.through v = (o, v.tail) := by
  cases v with
  | nil =>
    have ho : s.final = o := Step.settled.inj ((feed_ended_eq_final s).symm.trans h)
    rw [through, ho]
    rfl
  | cons c v =>
    have hc : s.feed (.char c) = .settled o := h
    rw [through_cons, hc]
    rfl

theorem feed_fresh_of_ne {i : Item} (h : i ≠ .char '\\') :
    fresh.feed i = .settled (.plain i none) := if_neg h

theorem feed_slash_of_ne {high : Option CodeUnit} {i : Item} (h : i ≠ .char 'u') :
    (slash high).feed i = .settled (literal high i) := if_neg h

theorem feed_alone_of_ne {high : CodeUnit} {i : Item} (h : i ≠ .char '\\') :
    (alone high).feed i = .settled (.broken (.unpaired high) (some i)) := if_neg h

end Scan

open Scan

theorem first_eq_char_iff {v : List Char} {c : Char} :
    Item.first v = .char c ↔ v.head? = some c := by
  cases v <;> simp [Item.first]

/-! Digits. -/

def range (a b : Char) : List Char :=
  (List.range' a.toNat (b.toNat + 1 - a.toNat)).map Char.ofNat

theorem mem_range {a b c : Char} (ha : a ≤ c) (hb : c ≤ b) : c ∈ range a b := by
  have lower : a.toNat ≤ c.toNat := ha
  have upper : c.toNat ≤ b.toNat := hb
  refine List.mem_map.mpr ⟨c.toNat, ?_, Char.ofNat_toNat c⟩
  rw [List.mem_range'_1]
  omega

theorem mem_hexDigits_of_digit? {c : Char} (h : (CodeUnit.digit? c).isSome) : c ∈ hexDigits := by
  have decimal : (range '0' '9').all hexDigits.contains = true := by decide
  have lower : (range 'a' 'f').all hexDigits.contains = true := by decide
  have upper : (range 'A' 'F').all hexDigits.contains = true := by decide
  unfold CodeUnit.digit? at h
  split at h
  · rename_i hc
    exact List.contains_iff_mem.mp (List.all_eq_true.mp decimal c (mem_range hc.1 hc.2))
  · split at h
    · rename_i hc
      exact List.contains_iff_mem.mp (List.all_eq_true.mp lower c (mem_range hc.1 hc.2))
    · split at h
      · rename_i hc
        exact List.contains_iff_mem.mp (List.all_eq_true.mp upper c (mem_range hc.1 hc.2))
      · contradiction

theorem digit?_char (d : HexDigit) : CodeUnit.digit? d.char = some (UInt16.ofNat d.value) := by
  have all : (hexDigits.all fun c =>
      CodeUnit.digit? c == some (UInt16.ofNat (hexDigits.idxOf c % 16))) = true := by decide
  exact eq_of_beq (List.all_eq_true.mp all d.char d.legal)

theorem digit?_first_eq_none {v : List Char} (h : ∀ d : HexDigit, v.head? ≠ some d.char) :
    digit? (.first v) = none := by
  cases v with
  | nil => rfl
  | cons c v =>
    by_contra some
    have hc : c ∈ hexDigits := mem_hexDigits_of_digit? (Option.isSome_iff_ne_none.mpr some)
    exact h ⟨c, hc⟩ rfl

theorem shift_ofNat (n : Nat) (d : HexDigit) :
    CodeUnit.shift (UInt16.ofNat n) (UInt16.ofNat d.value) = UInt16.ofNat (n * 16 + d.value) := by
  rw [CodeUnit.shift, UInt16.ofNat_add, UInt16.ofNat_mul]
  rfl

namespace Scan

theorem feed_digit {high : Option CodeUnit} {count : Fin 4} {n : Nat} (d : HexDigit) :
    feed (digits high count (UInt16.ofNat n)) (.char d.char) =
      if count = 3 then complete high (UInt16.ofNat (n * 16 + d.value))
      else .more (digits high (count + 1) (UInt16.ofNat (n * 16 + d.value))) := by
  have hu : ¬ (count = 0 ∧ Item.char d.char = .char 'u') :=
    fun h => hexDigit_ne_u d (Item.char.inj h.2)
  simp only [feed, if_neg hu, digit?, digit?_char, shift_ofNat]

theorem through_digits (high : Option CodeUnit) (ds : List HexDigit) (count : Nat)
    (h : count + ds.length < 4) (n : Nat) (v : List Char) :
    (digits high ⟨count, by omega⟩ (UInt16.ofNat n)).through (ds.map HexDigit.char ++ v) =
      (digits high ⟨count + ds.length, h⟩
        (UInt16.ofNat (ds.foldl (fun n d => n * 16 + d.value) n))).through v := by
  induction ds generalizing count n with
  | nil => rfl
  | cons d ds ih =>
    rw [List.length_cons] at h
    have early : (⟨count, by omega⟩ : Fin 4) ≠ 3 := by
      intro h3
      have := congrArg Fin.val h3
      simp at this
      omega
    have next : (⟨count, by omega⟩ : Fin 4) + 1 = ⟨count + 1, by omega⟩ := by
      apply Fin.ext
      rw [Fin.val_add]
      exact Nat.mod_eq_of_lt (by omega)
    rw [List.map_cons, List.cons_append, through_cons, feed_digit, if_neg early, next]
    simp only [Step.through, List.foldl_cons]
    rw [ih (count + 1) (by omega)]
    simp only [List.length_cons, Nat.add_assoc, Nat.add_comm 1]

theorem through_run (high : Option CodeUnit) (k : Nat) (v : List Char) :
    (digits high 0 0).through (List.replicate k 'u' ++ v) = (digits high 0 0).through v := by
  induction k with
  | zero => rfl
  | succ k ih =>
    rw [List.replicate_succ, List.cons_append, through_cons]
    exact ih

/-- The scan in front of a backslash, where `high` may wait for its partner. -/
def awaiting : Option CodeUnit → Scan
  | none => fresh
  | some high => alone high

theorem through_backslash (high : Option CodeUnit) (v : List Char) :
    (awaiting high).through ('\\' :: v) = (slash high).through v := by
  cases high <;> rfl

theorem through_opening (high : Option CodeUnit) (extra : Nat) (ds : List HexDigit)
    (v : List Char) :
    (awaiting high).through (opening extra ds ++ v) =
      (digits high 0 0).through (ds.map HexDigit.char ++ v) := by
  rw [opening, List.cons_append, List.append_assoc, through_backslash, List.replicate_succ,
    List.cons_append, through_cons]
  exact through_run high extra _

theorem through_escape (high : Option CodeUnit) (e : Escape) (v : List Char) :
    (awaiting high).through (e.text ++ v) = (complete high e.unit).through v := by
  obtain ⟨ds, d, hd⟩ : ∃ ds d, e.digits = ds ++ [d] :=
    ⟨_, _, (List.dropLast_concat_getLast e.digits_ne_nil).symm⟩
  have three : ds.length = 3 := by
    have := e.four
    simpa [hd] using this
  have value : e.unit = UInt16.ofNat (number ds * 16 + d.value) := by
    simp [Escape.unit, Escape.value, number, hd, List.foldl_append]
  have last : (⟨3, by omega⟩ : Fin 4) = 3 := rfl
  have h := through_digits high ds 0 (by omega) 0 (d.char :: v)
  simp only [Nat.zero_add, three] at h
  rw [Escape.text, through_opening, hd, List.map_append, List.append_assoc, List.map_singleton,
    List.singleton_append]
  refine h.trans ?_
  rw [through_cons, feed_digit, if_pos last, value]
  rfl

theorem through_stub (high : Option CodeUnit) (s : Stub) {v : List Char} (h : s.EndsAt v) :
    (awaiting high).through (s.text ++ v) =
      (.broken (.missingDigit (.first v)) (some (.first v)), v.tail) := by
  have few : 0 + s.digits.length < 4 := by
    rw [Nat.zero_add]
    exact s.few
  have hu : ¬ ((⟨0 + s.digits.length, few⟩ : Fin 4) = 0 ∧ Item.first v = .char 'u') := by
    rintro ⟨hc, hv⟩
    have none : s.digits = [] := by
      have := congrArg Fin.val hc
      simpa using this
    exact h.1 none (first_eq_char_iff.mp hv)
  rw [Stub.text, through_opening]
  refine (through_digits high s.digits 0 few 0 v).trans ?_
  apply through_of_settled
  simp only [feed, if_neg hu, digit?_first_eq_none h.2]

end Scan

/-! Surrogates. -/

namespace CodeUnit

theorem isHigh_ofNat {n : Nat} (h : n < 0x10000) : isHigh (UInt16.ofNat n) = true ↔ IsHigh n := by
  have value : (UInt16.ofNat n).toNat = n := Nat.mod_eq_of_lt h
  simp [isHigh, IsHigh, UInt16.le_iff_toNat_le, value]

theorem isLow_ofNat {n : Nat} (h : n < 0x10000) : isLow (UInt16.ofNat n) = true ↔ IsLow n := by
  have value : (UInt16.ofNat n).toNat = n := Nat.mod_eq_of_lt h
  simp [isLow, IsLow, UInt16.le_iff_toNat_le, value]

end CodeUnit

namespace Escape

theorem isHigh_unit (e : Escape) : e.unit.isHigh = true ↔ IsHigh e.value :=
  CodeUnit.isHigh_ofNat e.value_lt

theorem isLow_unit (e : Escape) : e.unit.isLow = true ↔ IsLow e.value :=
  CodeUnit.isLow_ofNat e.value_lt

theorem char_unit {e : Escape} (high : ¬ IsHigh e.value) (low : ¬ IsLow e.value) :
    e.unit.char = e.char high low := by
  rw [CodeUnit.char, toNat_unit, Char.ofNat, dif_pos (isValidChar high low)]
  rfl

theorem pair_unit {e f : Escape} (high : IsHigh e.value) (low : IsLow f.value) :
    CodeUnit.pair e.unit f.unit = e.pair f high low := by
  have valid := isValidChar_combine high low
  unfold combine at valid
  rw [CodeUnit.pair, toNat_unit, toNat_unit, Char.ofNat, dif_pos valid]
  rfl

end Escape

namespace Scan

variable {e f : Escape} {high : CodeUnit}

theorem complete_none_high (h : IsHigh e.value) : complete none e.unit = .more (alone e.unit) := by
  simp only [complete, if_neg (mt e.isLow_unit.mp (not_isLow_of_isHigh h)),
    if_pos (e.isHigh_unit.mpr h)]

theorem complete_none_low (h : IsLow e.value) :
    complete none e.unit = .settled (.broken (.unpaired e.unit) none) := by
  simp only [complete, if_pos (e.isLow_unit.mpr h)]

theorem complete_none_unit (hh : ¬ IsHigh e.value) (hl : ¬ IsLow e.value) :
    complete none e.unit = .settled (.decoded (e.char hh hl)) := by
  simp only [complete, if_neg (mt e.isLow_unit.mp hl), if_neg (mt e.isHigh_unit.mp hh),
    Escape.char_unit hh hl]

theorem complete_some_low (hh : IsHigh e.value) (hl : IsLow f.value) :
    complete (some e.unit) f.unit = .settled (.decoded (e.pair f hh hl)) := by
  simp only [complete, if_pos (f.isLow_unit.mpr hl), Escape.pair_unit hh hl]

theorem complete_some_high (h : IsHigh f.value) :
    complete (some high) f.unit = .settled (.broken (.unpaired high) none) := by
  simp only [complete, if_neg (mt f.isLow_unit.mp (not_isLow_of_isHigh h)),
    if_pos (f.isHigh_unit.mpr h)]

theorem complete_some_unit (hh : ¬ IsHigh f.value) (hl : ¬ IsLow f.value) :
    complete (some high) f.unit =
      .settled (.broken (.unpaired high) (some (.char (f.char hh hl)))) := by
  simp only [complete, if_neg (mt f.isLow_unit.mp hl), if_neg (mt f.isHigh_unit.mp hh),
    Escape.char_unit hh hl]

theorem through_high (h : IsHigh e.value) (v : List Char) :
    fresh.through (e.text ++ v) = (awaiting (some e.unit)).through v := by
  refine (through_escape none e v).trans ?_
  rw [complete_none_high h]
  rfl

theorem through_two {o : Outcome} (h : IsHigh e.value)
    (hf : complete (some e.unit) f.unit = .settled o) (v : List Char) :
    fresh.through (e.text ++ (f.text ++ v)) = (o, v) := by
  rw [through_high h, through_escape, hf]
  rfl

end Scan

def Piece.outcome : Piece → Outcome
  | plain c _ => .plain (.char c) none
  | literal c _ => .plain (.char '\\') (some (.char c))
  | unit e high low => .decoded (e.char high low)
  | pair e f high low => .decoded (e.pair f high low)

namespace Scan

theorem through_piece (p : Piece) (v : List Char) :
    fresh.through (p.text ++ v) = (p.outcome, v) := by
  cases p with
  | plain c h =>
    have hc : Item.char c ≠ .char '\\' := fun e => h (Item.char.inj e)
    exact through_of_settled (v := c :: v) (feed_fresh_of_ne hc)
  | literal c h =>
    have hc : Item.char c ≠ .char 'u' := fun e => h (Item.char.inj e)
    refine (through_backslash none (c :: v)).trans ?_
    exact through_of_settled (v := c :: v) (feed_slash_of_ne hc)
  | unit e high low =>
    refine (through_escape none e v).trans ?_
    rw [complete_none_unit high low]
    rfl
  | pair e f high low =>
    rw [Piece.text, List.append_assoc]
    exact through_two high (complete_some_low high low) v

theorem through_broken {v : List Char} {d : Defect} {held : Option Item} {rest : List Char}
    (h : Broken v d held rest) : fresh.through v = (.broken d held, rest) := by
  cases h with
  | short s hs => exact through_stub none s hs
  | low e _ he =>
    refine (through_escape none e rest).trans ?_
    rw [complete_none_low he]
    rfl
  | alone e he hv =>
    rw [through_high he]
    exact through_of_settled (feed_alone_of_ne (mt first_eq_char_iff.mp hv))
  | slash e he hv =>
    rw [through_high he, through_backslash]
    exact through_of_settled (feed_slash_of_ne (mt first_eq_char_iff.mp hv))
  | shortLow e s he hs =>
    rw [through_high he]
    exact through_stub (some e.unit) s hs
  | unit e f _ he high low => exact through_two he (complete_some_unit high low) rest
  | high e f _ he hf => exact through_two he (complete_some_high hf) rest

end Scan

theorem broken_of_through {v : List Char} {d : Defect} {held : Option Item}
    (h : (fresh.through v).1 = .broken d held) : Broken v d held (fresh.through v).2 := by
  rcases begins v with rfl | rfl | ⟨p, w, rfl⟩ | ⟨d', held', rest, hv⟩
  · cases h
  · cases h
  · rw [through_piece] at h
    cases p <;> cases h
  · rw [through_broken hv] at h ⊢
    cases h
    exact hv

end EscapedText
