import EscapedText.Utf8
import Mathlib.Data.List.Basic

/-!
Bytes cut into segments, apart from any reader. A segment is the sequence of a character, or bytes
that stand for nothing: a byte that opens no sequence, a sequence that breaks off, or a whole one
whose number no character has in that many bytes. Every list of bytes is cut in such a way from the
front, and it is the UTF-8 of a text just when its segments are characters.
-/
namespace EscapedText.Utf8

/-- `lead` opens a sequence with so many bytes behind it. -/
inductive Opens (lead : UInt8) : Nat → Prop where
  | two (h : 0xC2 ≤ lead ∧ lead ≤ 0xDF) : Opens lead 1
  | three (h : 0xE0 ≤ lead ∧ lead ≤ 0xEF) : Opens lead 2
  | four (h : 0xF0 ≤ lead ∧ lead ≤ 0xF4) : Opens lead 3

def Continues (b : UInt8) : Prop := 0x80 ≤ b ∧ b ≤ 0xBF

/-- The least number that needs so many bytes behind the lead. -/
def least : Nat → Nat
  | 0 => 0
  | 1 => 0x80
  | 2 => 0x800
  | _ => 0x10000

/-- Overlong, a surrogate, or past the last character. -/
def Illegal (more number : Nat) : Prop :=
  number < least more ∨ 0xD800 ≤ number ∧ number ≤ 0xDFFF ∨ 0x10FFFF < number

/-- Bytes that stand for nothing when `rest` follows. -/
inductive Damaged : List UInt8 → List UInt8 → Prop where
  | stray (b : UInt8) (rest : List UInt8) (h : 0x80 ≤ b ∧ b ≤ 0xC1 ∨ 0xF5 ≤ b) : Damaged [b] rest
  | short (lead : UInt8) (tail rest : List UInt8) {more : Nat} (opens : Opens lead more)
    (all : ∀ b ∈ tail, Continues b) (few : tail.length < more)
    (stop : ∀ b, rest.head? = some b → ¬ Continues b) : Damaged (lead :: tail) rest
  | wrong (lead : UInt8) (tail rest : List UInt8) {more : Nat} (opens : Opens lead more)
    (all : ∀ b ∈ tail, Continues b) (full : tail.length = more)
    (illegal : Illegal more (codePoint (lead :: tail))) : Damaged (lead :: tail) rest

inductive Segment where
  | char (c : Char)
  | damaged (bytes : List UInt8)
deriving DecidableEq

namespace Segment

def bytes : Segment → List UInt8
  | char c => encode c
  | damaged bs => bs

/-- The segment is one also with `rest` behind it, which matters to damage alone. -/
def Fits : Segment → List UInt8 → Prop
  | char _, _ => True
  | damaged bs, rest => Damaged bs rest

/-- Each segment fits what comes behind it. -/
def AllFit : List Segment → Prop
  | [] => True
  | g :: gs => g.Fits (gs.flatMap bytes) ∧ AllFit gs

end Segment

/-! Single bytes. -/

theorem isContinuation_iff {b : UInt8} : isContinuation b = true ↔ Continues b := by
  have upper : b < 0xC0 ↔ b ≤ 0xBF := by
    rw [UInt8.lt_iff_toNat_lt, UInt8.le_iff_toNat_le]
    exact Nat.lt_succ_iff
  simp [isContinuation, Continues, upper]

theorem width_of_opens {lead : UInt8} {more : Nat} (h : Opens lead more) :
    width lead = more + 1 := by
  cases h with
  | two h | three h | four h =>
    obtain ⟨low, high⟩ := h
    simp only [UInt8.le_iff_toNat_le, UInt8.toNat_ofNat] at low high
    simp only [width, UInt8.lt_iff_toNat_lt, UInt8.toNat_ofNat]
    repeat' split
    all_goals omega

theorem width_of_small {b : UInt8} (h : b < 0x80) : width b = 1 := if_pos h

theorem width_of_stray {b : UInt8} (h : 0x80 ≤ b ∧ b ≤ 0xC1 ∨ 0xF5 ≤ b) : width b = 0 := by
  simp only [UInt8.le_iff_toNat_le, UInt8.toNat_ofNat] at h
  simp only [width, UInt8.lt_iff_toNat_lt, UInt8.toNat_ofNat]
  repeat' split
  all_goals omega

theorem lead_cases (b : UInt8) :
    b < 0x80 ∨ (0x80 ≤ b ∧ b ≤ 0xC1 ∨ 0xF5 ≤ b) ∨ ∃ more, Opens b more := by
  by_cases two : 0xC2 ≤ b ∧ b ≤ 0xDF
  · exact .inr (.inr ⟨1, .two two⟩)
  · by_cases three : 0xE0 ≤ b ∧ b ≤ 0xEF
    · exact .inr (.inr ⟨2, .three three⟩)
    · by_cases four : 0xF0 ≤ b ∧ b ≤ 0xF4
      · exact .inr (.inr ⟨3, .four four⟩)
      · simp only [UInt8.le_iff_toNat_le, UInt8.lt_iff_toNat_lt, UInt8.toNat_ofNat] at *
        omega

/-! Whole sequences. -/

theorem toNat_of_continues {b : UInt8} (h : Continues b) : 0x80 ≤ b.toNat ∧ b.toNat ≤ 0xBF := by
  simpa [Continues, UInt8.le_iff_toNat_le] using h

theorem continues_ofNat (n : Nat) : Continues (UInt8.ofNat (n % 64 + 128)) := by
  simp only [Continues, UInt8.le_iff_toNat_le, UInt8.toNat_ofNat, UInt8.toNat_ofNat']
  omega

theorem encode_of_toNat {c : Char} {n : Nat} (h : c.toNat = n) :
    encode c = if n ≤ 127 then [UInt8.ofNat n]
      else if n ≤ 2047 then [UInt8.ofNat (n / 64 % 32 + 192), UInt8.ofNat (n % 64 + 128)]
      else if n ≤ 65535 then [UInt8.ofNat (n / 4096 % 16 + 224), UInt8.ofNat (n / 64 % 64 + 128),
        UInt8.ofNat (n % 64 + 128)]
      else [UInt8.ofNat (n / 262144 % 8 + 240), UInt8.ofNat (n / 4096 % 64 + 128),
        UInt8.ofNat (n / 64 % 64 + 128), UInt8.ofNat (n % 64 + 128)] := by
  subst h
  rfl

/-- A character is one byte, or a lead with as many bytes behind it as it opens. -/
theorem encode_shape (c : Char) :
    (∃ a, encode c = [a] ∧ a < 0x80) ∨ ∃ lead tail more, encode c = lead :: tail ∧
      Opens lead more ∧ (∀ b ∈ tail, Continues b) ∧ tail.length = more ∧
      ¬ Illegal more c.toNat := by
  have valid : c.toNat < 0xD800 ∨ 0xDFFF < c.toNat ∧ c.toNat < 0x110000 := c.valid
  rw [encode_of_toNat rfl]
  split
  · refine .inl ⟨_, rfl, ?_⟩
    simp only [UInt8.lt_iff_toNat_lt, UInt8.toNat_ofNat, UInt8.toNat_ofNat']
    omega
  · split
    · refine .inr ⟨_, _, 1, rfl, .two ?_, ?_, rfl, ?_⟩
      · simp only [UInt8.le_iff_toNat_le, UInt8.toNat_ofNat, UInt8.toNat_ofNat']
        omega
      · rintro b (_ | ⟨_, ⟨⟩⟩)
        exact continues_ofNat _
      · simp only [Illegal, least]
        omega
    · split
      · refine .inr ⟨_, _, 2, rfl, .three ?_, ?_, rfl, ?_⟩
        · simp only [UInt8.le_iff_toNat_le, UInt8.toNat_ofNat, UInt8.toNat_ofNat']
          omega
        · rintro b (_ | ⟨_, _ | ⟨_, ⟨⟩⟩⟩)
          · exact continues_ofNat _
          · exact continues_ofNat _
        · simp only [Illegal, least]
          omega
      · refine .inr ⟨_, _, 3, rfl, .four ?_, ?_, rfl, ?_⟩
        · simp only [UInt8.le_iff_toNat_le, UInt8.toNat_ofNat, UInt8.toNat_ofNat']
          omega
        · rintro b (_ | ⟨_, _ | ⟨_, _ | ⟨_, ⟨⟩⟩⟩⟩)
          · exact continues_ofNat _
          · exact continues_ofNat _
          · exact continues_ofNat _
        · simp only [Illegal, least]
          omega

theorem isValidChar_of_legal {more n : Nat} (h : ¬ Illegal more n) : n.isValidChar := by
  unfold Illegal at h
  unfold Nat.isValidChar
  omega

theorem exists_char {lead : UInt8} {tail : List UInt8} {more : Nat} (opens : Opens lead more)
    (all : ∀ b ∈ tail, Continues b) (full : tail.length = more)
    (legal : ¬ Illegal more (codePoint (lead :: tail))) : ∃ c, encode c = lead :: tail := by
  obtain ⟨x, number⟩ : ∃ x : Char, x.toNat = codePoint (lead :: tail) :=
    ⟨Char.ofNatAux _ (isValidChar_of_legal legal), rfl⟩
  refine ⟨x, ?_⟩
  rw [← number] at legal
  rw [encode_of_toNat rfl]
  cases opens with
  | two h =>
    obtain ⟨a, rfl⟩ := List.length_eq_one_iff.mp full
    have ha := toNat_of_continues (all a (by simp))
    simp only [UInt8.le_iff_toNat_le, UInt8.toNat_ofNat] at h
    simp only [codePoint] at number
    simp only [Illegal, least] at legal
    rw [if_neg, if_pos]
    · simp only [List.cons.injEq, ← UInt8.toNat_inj, UInt8.toNat_ofNat', and_true]
      omega
    · omega
    · omega
  | three h =>
    obtain ⟨a, b, rfl⟩ := List.length_eq_two.mp full
    have ha := toNat_of_continues (all a (by simp))
    have hb := toNat_of_continues (all b (by simp))
    simp only [UInt8.le_iff_toNat_le, UInt8.toNat_ofNat] at h
    simp only [codePoint] at number
    simp only [Illegal, least] at legal
    rw [if_neg, if_neg, if_pos]
    · simp only [List.cons.injEq, ← UInt8.toNat_inj, UInt8.toNat_ofNat', and_true]
      omega
    · omega
    · omega
    · omega
  | four h =>
    obtain ⟨a, b, c, rfl⟩ := List.length_eq_three.mp full
    have ha := toNat_of_continues (all a (by simp))
    have hb := toNat_of_continues (all b (by simp))
    have hc := toNat_of_continues (all c (by simp))
    simp only [UInt8.le_iff_toNat_le, UInt8.toNat_ofNat] at h
    simp only [codePoint] at number
    simp only [Illegal, least] at legal
    rw [if_neg, if_neg, if_neg]
    · simp only [List.cons.injEq, ← UInt8.toNat_inj, UInt8.toNat_ofNat', and_true]
      omega
    · omega
    · omega
    · omega

theorem opens_unique {lead : UInt8} {m n : Nat} (hm : Opens lead m) (hn : Opens lead n) :
    m = n := Nat.succ.inj ((width_of_opens hm).symm.trans (width_of_opens hn))

theorem encode_ne_of_illegal {lead : UInt8} {tail : List UInt8} {more : Nat}
    (opens : Opens lead more) (illegal : Illegal more (codePoint (lead :: tail))) (c : Char) :
    encode c ≠ lead :: tail := by
  intro h
  rw [← h, codePoint_encode] at illegal
  rcases encode_shape c with ⟨a, ha, small⟩ | ⟨lead', tail', more', hc, opens', -, -, legal⟩
  · rw [ha] at h
    cases h
    have one := (width_of_small small).symm.trans (width_of_opens opens)
    cases opens <;> contradiction
  · rw [hc] at h
    cases h
    exact legal (opens_unique opens opens' ▸ illegal)

/-! Cutting. -/

theorem exists_tail (n : Nat) (v : List UInt8) :
    ∃ tail rest, v = tail ++ rest ∧ tail.length ≤ n ∧ (∀ b ∈ tail, Continues b) ∧
      (tail.length < n → ∀ b, rest.head? = some b → ¬ Continues b) := by
  induction n generalizing v with
  | zero => exact ⟨[], v, rfl, Nat.le_refl 0, by simp, fun h => absurd h (Nat.lt_irrefl 0)⟩
  | succ n ih =>
    by_cases hv : ∃ b, v.head? = some b ∧ Continues b
    · obtain ⟨b, hb, continues⟩ := hv
      obtain ⟨w, rfl⟩ := List.head?_eq_some_iff.mp hb
      obtain ⟨tail, rest, rfl, few, all, stop⟩ := ih w
      refine ⟨b :: tail, rest, rfl, Nat.succ_le_succ few, ?_, ?_⟩
      · simpa using ⟨continues, all⟩
      · intro less
        exact stop (Nat.lt_of_succ_lt_succ less)
    · refine ⟨[], v, rfl, Nat.zero_le _, by simp, ?_⟩
      intro _ b hb continues
      exact hv ⟨b, hb, continues⟩

theorem exists_encode_of_small {b : UInt8} (h : b < 0x80) : ∃ c, encode c = [b] := by
  have small : b.toNat < 128 := by simpa [UInt8.lt_iff_toNat_lt] using h
  have valid : b.toNat.isValidChar := .inl (by omega)
  obtain ⟨c, hc⟩ : ∃ c : Char, c.toNat = b.toNat := ⟨Char.ofNatAux _ valid, rfl⟩
  refine ⟨c, ?_⟩
  rw [encode_of_toNat hc, if_pos (by omega), UInt8.ofNat_toNat]

theorem exists_segment {v : List UInt8} (h : v ≠ []) :
    ∃ (g : Segment) (rest : List UInt8), v = g.bytes ++ rest ∧ g.Fits rest := by
  obtain ⟨lead, v, rfl⟩ := List.exists_cons_of_ne_nil h
  rcases lead_cases lead with small | stray | ⟨more, opens⟩
  · obtain ⟨c, hc⟩ := exists_encode_of_small small
    refine ⟨.char c, v, ?_, trivial⟩
    simp [Segment.bytes, hc]
  · exact ⟨.damaged [lead], v, rfl, .stray lead v stray⟩
  · obtain ⟨tail, rest, rfl, few, all, stop⟩ := exists_tail more v
    rcases Nat.lt_or_eq_of_le few with less | full
    · exact ⟨.damaged (lead :: tail), rest, rfl, .short lead tail rest opens all less (stop less)⟩
    · by_cases illegal : Illegal more (codePoint (lead :: tail))
      · exact ⟨.damaged (lead :: tail), rest, rfl, .wrong lead tail rest opens all full illegal⟩
      · obtain ⟨c, hc⟩ := exists_char opens all full illegal
        refine ⟨.char c, rest, ?_, trivial⟩
        simp [Segment.bytes, hc]

theorem Damaged.ne_nil {bs rest : List UInt8} (h : Damaged bs rest) : bs ≠ [] := by
  cases h <;> simp

theorem Segment.bytes_ne_nil {g : Segment} {rest : List UInt8} (h : g.Fits rest) :
    g.bytes ≠ [] := by
  cases g with
  | char c => exact encode_ne_nil c
  | damaged bs => exact Damaged.ne_nil h

theorem exists_segments (v : List UInt8) :
    ∃ gs : List Segment, gs.flatMap Segment.bytes = v ∧ Segment.AllFit gs := by
  by_cases h : v = []
  · exact ⟨[], h.symm, trivial⟩
  · obtain ⟨g, rest, hv, fits⟩ := exists_segment h
    have some : 0 < g.bytes.length := List.length_pos_iff.mpr (Segment.bytes_ne_nil fits)
    have shrinks : rest.length < v.length := by
      rw [hv, List.length_append]
      omega
    obtain ⟨gs, rfl, all⟩ := exists_segments rest
    exact ⟨g :: gs, hv.symm, fits, all⟩
termination_by v.length

/-- `tail` is the run of bytes that `lead` takes from what comes behind it. -/
structure Spans (lead : UInt8) (tail rest : List UInt8) : Prop where
  all : ∀ b ∈ tail, Continues b
  few : tail.length ≤ width lead - 1
  stop : tail.length < width lead - 1 → ∀ b, rest.head? = some b → ¬ Continues b

theorem Spans.tail_eq {lead : UInt8} {tail rest : List UInt8} (h : Spans lead tail rest) :
    ((tail ++ rest).take (width lead - 1)).takeWhile isContinuation = tail := by
  have all : ∀ b ∈ tail, isContinuation b = true := fun b hb => isContinuation_iff.mpr (h.all b hb)
  rw [List.take_append, List.take_of_length_le h.few, List.takeWhile_append_of_pos all]
  rcases Nat.lt_or_eq_of_le h.few with less | full
  · have stop := h.stop less
    cases rest with
    | nil => simp
    | cons b rest =>
      have other : ¬ isContinuation b = true := mt isContinuation_iff.mp (stop b rfl)
      obtain ⟨n, hn⟩ := Nat.exists_eq_succ_of_ne_zero (Nat.sub_ne_zero_of_lt less)
      simp [hn, other]
  · simp [full]

namespace Segment

theorem exists_spans {g : Segment} {rest : List UInt8} (h : g.Fits rest) :
    ∃ lead tail, g.bytes = lead :: tail ∧ Spans lead tail rest := by
  cases g with
  | char c =>
    rcases encode_shape c with ⟨a, ha, small⟩ | ⟨lead, tail, more, hc, opens, all, full, -⟩
    · have one := width_of_small small
      exact ⟨a, [], ha, by simp, by simp, by simp [one]⟩
    · have width := width_of_opens opens
      exact ⟨lead, tail, hc, all, by omega, by omega⟩
  | damaged bs =>
    cases h with
    | stray b _ stray =>
      have zero := width_of_stray stray
      exact ⟨b, [], rfl, by simp, by simp, by simp [zero]⟩
    | short lead tail _ opens all few stop =>
      have width := width_of_opens opens
      exact ⟨lead, tail, rfl, all, by omega, fun _ => stop⟩
    | wrong lead tail _ opens all full illegal =>
      have width := width_of_opens opens
      exact ⟨lead, tail, rfl, all, by omega, by omega⟩

end Segment

theorem width_of_encode {c : Char} {lead : UInt8} {tail : List UInt8}
    (h : encode c = lead :: tail) : width lead = tail.length + 1 := by
  rcases encode_shape c with ⟨a, ha, small⟩ | ⟨lead', tail', more, hc, opens, -, full, -⟩
  · rw [ha] at h
    cases h
    exact width_of_small small
  · rw [hc] at h
    cases h
    rw [width_of_opens opens, full]

theorem Damaged.encode_ne {bs rest : List UInt8} (h : Damaged bs rest) (c : Char) :
    encode c ≠ bs := by
  intro hc
  cases h with
  | stray b _ stray =>
    have zero := width_of_stray stray
    have some := width_of_encode hc
    omega
  | short lead tail _ opens all few stop =>
    have more := width_of_opens opens
    have less := width_of_encode hc
    omega
  | wrong lead tail _ opens all full illegal => exact encode_ne_of_illegal opens illegal c hc

theorem encode_injective {c d : Char} (h : encode c = encode d) : c = d := by
  have same := congrArg decode? h
  rw [decode?_encode, decode?_encode] at same
  exact Option.some.inj same

namespace Segment

/-- The bytes behind decide where a segment ends, so no other can begin there. -/
theorem bytes_append_inj {g g' : Segment} {rest rest' : List UInt8} (fits : g.Fits rest)
    (fits' : g'.Fits rest') (h : g.bytes ++ rest = g'.bytes ++ rest') : g = g' ∧ rest = rest' := by
  obtain ⟨lead, tail, hg, spans⟩ := exists_spans fits
  obtain ⟨lead', tail', hg', spans'⟩ := exists_spans fits'
  rw [hg, hg'] at h
  obtain ⟨rfl, behind⟩ := List.cons.inj h
  have tails : tail = tail' := by
    rw [← spans.tail_eq, ← spans'.tail_eq]
    exact congrArg (fun v => (v.take (width lead - 1)).takeWhile isContinuation) behind
  have same : g.bytes = g'.bytes := by
    rw [hg, hg', tails]
  constructor
  · cases g with
    | char c =>
      cases g' with
      | char d => exact congrArg char (encode_injective same)
      | damaged bs => exact absurd same (Damaged.encode_ne fits' c)
    | damaged bs =>
      cases g' with
      | char d => exact absurd same.symm (Damaged.encode_ne fits d)
      | damaged cs => exact congrArg damaged same
  · rw [tails] at behind
    exact List.append_cancel_left behind

theorem segments_unique {gs gs' : List Segment} (all : AllFit gs) (all' : AllFit gs')
    (h : gs.flatMap bytes = gs'.flatMap bytes) : gs = gs' := by
  induction gs generalizing gs' with
  | nil =>
    cases gs' with
    | nil => rfl
    | cons g gs' => exact absurd (List.append_eq_nil_iff.mp h.symm).1 (bytes_ne_nil all'.1)
  | cons g gs ih =>
    cases gs' with
    | nil => exact absurd (List.append_eq_nil_iff.mp h).1 (bytes_ne_nil all.1)
    | cons g' gs' =>
      obtain ⟨rfl, rest⟩ := bytes_append_inj all.1 all'.1 h
      rw [ih all.2 all'.2 rest]

theorem bytes_ne_nil_of_mem {gs : List Segment} (all : AllFit gs) : ∀ g ∈ gs, g.bytes ≠ [] := by
  induction gs with
  | nil => simp
  | cons g gs ih => exact List.forall_mem_cons.mpr ⟨bytes_ne_nil all.1, ih all.2⟩

theorem allFit_chars (cs : List Char) : AllFit (cs.map char) := by
  induction cs with
  | nil => trivial
  | cons c cs ih => exact ⟨trivial, ih⟩

theorem bytes_chars (cs : List Char) : (cs.map char).flatMap bytes = cs.flatMap encode := by
  induction cs with
  | nil => rfl
  | cons c cs ih => exact congrArg (encode c ++ ·) ih

theorem eq_chars_iff {gs : List Segment} (all : AllFit gs) (cs : List Char) :
    gs = cs.map char ↔ gs.flatMap bytes = cs.flatMap encode := by
  constructor
  · rintro rfl
    exact bytes_chars cs
  · intro h
    exact segments_unique all (allFit_chars cs) (h.trans (bytes_chars cs).symm)

end Segment

theorem isValidUTF8_iff {v : List UInt8} :
    v.toByteArray.IsValidUTF8 ↔ ∃ cs : List Char, v = cs.flatMap encode := by
  constructor
  · rintro ⟨cs, h⟩
    exact ⟨cs, List.toByteArray_inj.mp h⟩
  · rintro ⟨cs, rfl⟩
    exact ⟨cs, rfl⟩

end EscapedText.Utf8
