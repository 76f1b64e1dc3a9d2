import EscapedText.Failure
import Mathlib.Tactic.Ring

/-!
The written language, apart from any reader. A text is spelled in pieces: plain characters,
backslashes that open no escape, and escapes of one unit or of a surrogate pair. A spelling is
determined by its text, because no piece is the beginning of a different one.

Beside the pieces stand the beginnings that no spelling has: escapes that break off before the
fourth digit, and surrogates without their partners.
-/
namespace EscapedText

/-- Two rows of digits. The value of a digit is its place in its row. -/
def hexDigits : List Char :=
  ['0', '1', '2', '3', '4', '5', '6', '7', '8', '9', 'a', 'b', 'c', 'd', 'e', 'f',
    '0', '1', '2', '3', '4', '5', '6', '7', '8', '9', 'A', 'B', 'C', 'D', 'E', 'F']

@[ext]
structure HexDigit where
  char : Char
  legal : char ∈ hexDigits
deriving DecidableEq

def HexDigit.value (d : HexDigit) : Nat := hexDigits.idxOf d.char % 16

/-- A backslash, `extra + 1` times the letter `u`, and four digits. -/
structure Escape where
  extra : Nat
  digits : List HexDigit
  four : digits.length = 4
deriving DecidableEq

structure Stub where
  extra : Nat
  digits : List HexDigit
  few : digits.length < 4
deriving DecidableEq

/-- What an escape or the stub of one looks like. -/
def opening (extra : Nat) (digits : List HexDigit) : List Char :=
  '\\' :: (List.replicate (extra + 1) 'u' ++ digits.map HexDigit.char)

def Escape.text (e : Escape) : List Char := opening e.extra e.digits

def Stub.text (s : Stub) : List Char := opening s.extra s.digits

def number (digits : List HexDigit) : Nat := digits.foldl (fun n d => n * 16 + d.value) 0

def Escape.value (e : Escape) : Nat := number e.digits

def Escape.unit (e : Escape) : CodeUnit := UInt16.ofNat e.value

theorem HexDigit.value_lt (d : HexDigit) : d.value < 16 := Nat.mod_lt _ (by decide)

theorem foldl_number_lt (digits : List HexDigit) (n : Nat) :
    digits.foldl (fun n d => n * 16 + d.value) n < (n + 1) * 16 ^ digits.length := by
  induction digits generalizing n with
  | nil => simp
  | cons d ds ih =>
    have hd := d.value_lt
    have room : n * 16 + d.value + 1 ≤ (n + 1) * 16 := by omega
    calc (d :: ds).foldl (fun n d => n * 16 + d.value) n
        < (n * 16 + d.value + 1) * 16 ^ ds.length := ih _
      _ ≤ (n + 1) * 16 * 16 ^ ds.length := Nat.mul_le_mul_right _ room
      _ = (n + 1) * 16 ^ (d :: ds).length := by rw [List.length_cons, Nat.pow_succ]; ring

theorem Escape.value_lt (e : Escape) : e.value < 0x10000 := by
  have h := foldl_number_lt e.digits 0
  rw [e.four] at h
  exact h

theorem Escape.toNat_unit (e : Escape) : e.unit.toNat = e.value := by
  rw [unit, UInt16.toNat_ofNat']
  exact Nat.mod_eq_of_lt e.value_lt

def IsHigh (n : Nat) : Prop := 0xD800 ≤ n ∧ n ≤ 0xDBFF

def IsLow (n : Nat) : Prop := 0xDC00 ≤ n ∧ n ≤ 0xDFFF

theorem not_isLow_of_isHigh {n : Nat} (h : IsHigh n) : ¬ IsLow n := by
  unfold IsHigh at h
  unfold IsLow
  omega

/-- The number of the character that a surrogate pair stands for. -/
def combine (high low : Nat) : Nat := 0x10000 + (high - 0xD800) * 0x400 + (low - 0xDC00)

theorem Escape.isValidChar {e : Escape} (high : ¬ IsHigh e.value) (low : ¬ IsLow e.value) :
    e.value.isValidChar := by
  have h := e.value_lt
  unfold IsHigh at high
  unfold IsLow at low
  unfold Nat.isValidChar
  omega

theorem isValidChar_combine {m n : Nat} (high : IsHigh m) (low : IsLow n) :
    (combine m n).isValidChar := by
  unfold IsHigh at high
  unfold IsLow at low
  unfold Nat.isValidChar combine
  omega

def Escape.char (e : Escape) (high : ¬ IsHigh e.value) (low : ¬ IsLow e.value) : Char :=
  Char.ofNatAux e.value (isValidChar high low)

def Escape.pair (e f : Escape) (high : IsHigh e.value) (low : IsLow f.value) : Char :=
  Char.ofNatAux (combine e.value f.value) (isValidChar_combine high low)

inductive Piece where
  | plain (c : Char) (h : c ≠ '\\')
  | literal (c : Char) (h : c ≠ 'u')
  | unit (e : Escape) (high : ¬ IsHigh e.value) (low : ¬ IsLow e.value)
  | pair (e f : Escape) (high : IsHigh e.value) (low : IsLow f.value)

namespace Piece

def text : Piece → List Char
  | plain c _ => [c]
  | literal c _ => ['\\', c]
  | unit e _ _ => e.text
  | pair e f _ _ => e.text ++ f.text

def meaning : Piece → List Char
  | plain c _ => [c]
  | literal c _ => ['\\', c]
  | unit e high low => [e.char high low]
  | pair e f high low => [e.pair f high low]

end Piece

/-- Pieces in order, and perhaps a backslash as the last character of all. -/
structure Spelling where
  pieces : List Piece
  trailing : Bool

namespace Spelling

def tail (trailing : Bool) : List Char := if trailing then ['\\'] else []

def text (s : Spelling) : List Char := s.pieces.flatMap Piece.text ++ tail s.trailing

def meaning (s : Spelling) : List Char := s.pieces.flatMap Piece.meaning ++ tail s.trailing

theorem text_cons (p : Piece) (ps : List Piece) (trailing : Bool) :
    text ⟨p :: ps, trailing⟩ = p.text ++ text ⟨ps, trailing⟩ := by
  simp [text]

theorem meaning_cons (p : Piece) (ps : List Piece) (trailing : Bool) :
    meaning ⟨p :: ps, trailing⟩ = p.meaning ++ meaning ⟨ps, trailing⟩ := by
  simp [meaning]

end Spelling

/-- The first item of a text with nothing behind it. -/
def Item.first : List Char → Item
  | [] => .ended
  | c :: _ => .char c

/-- The stub reaches up to `v`: its run of `u` and its digits do not go on there. -/
def Stub.EndsAt (s : Stub) (v : List Char) : Prop :=
  (s.digits = [] → v.head? ≠ some 'u') ∧ ∀ d : HexDigit, v.head? ≠ some d.char

/-- The text begins with a malformed escape of this defect. The item that broke it is to be held,
or what it stands for if it is an escape itself, and the last list is the text behind that. -/
inductive Broken : List Char → Defect → Option Item → List Char → Prop where
  | short (s : Stub) {v : List Char} (h : s.EndsAt v) :
    Broken (s.text ++ v) (.missingDigit (.first v)) (some (.first v)) v.tail
  | low (e : Escape) (v : List Char) (h : IsLow e.value) :
    Broken (e.text ++ v) (.unpaired e.unit) none v
  | alone (e : Escape) {v : List Char} (h : IsHigh e.value) (hv : v.head? ≠ some '\\') :
    Broken (e.text ++ v) (.unpaired e.unit) (some (.first v)) v.tail
  | slash (e : Escape) {v : List Char} (h : IsHigh e.value) (hv : v.head? ≠ some 'u') :
    Broken (e.text ++ '\\' :: v) (.unpaired e.unit) (some (.first v)) v.tail
  | shortLow (e : Escape) (s : Stub) {v : List Char} (h : IsHigh e.value) (hs : s.EndsAt v) :
    Broken (e.text ++ (s.text ++ v)) (.missingDigit (.first v)) (some (.first v)) v.tail
  | unit (e f : Escape) (v : List Char) (h : IsHigh e.value) (high : ¬ IsHigh f.value)
    (low : ¬ IsLow f.value) :
    Broken (e.text ++ (f.text ++ v)) (.unpaired e.unit) (some (.char (f.char high low))) v
  | high (e f : Escape) (v : List Char) (h : IsHigh e.value) (hf : IsHigh f.value) :
    Broken (e.text ++ (f.text ++ v)) (.unpaired e.unit) none v

theorem hexDigit_ne_u (d : HexDigit) : d.char ≠ 'u' := by
  have none : hexDigits.all (· != 'u') = true := by decide
  simpa using List.all_eq_true.mp none d.char d.legal

theorem replicate_append_inj {m n : Nat} {v w : List Char} (hv : v.head? ≠ some 'u')
    (hw : w.head? ≠ some 'u') (h : List.replicate m 'u' ++ v = List.replicate n 'u' ++ w) :
    m = n ∧ v = w := by
  induction m generalizing n with
  | zero =>
    cases n with
    | zero => exact ⟨rfl, h⟩
    | succ n =>
      have hv' : v = 'u' :: (List.replicate n 'u' ++ w) := h
      rw [hv'] at hv
      exact absurd rfl hv
  | succ m ih =>
    cases n with
    | zero =>
      have hw' : 'u' :: (List.replicate m 'u' ++ v) = w := h
      rw [← hw'] at hw
      exact absurd rfl hw
    | succ n =>
      obtain ⟨hmn, hvw⟩ := ih (List.cons.inj h).2
      exact ⟨congrArg Nat.succ hmn, hvw⟩

theorem digits_head_ne_u {ds : List HexDigit} (hd : ds ≠ []) (v : List Char) :
    (ds.map HexDigit.char ++ v).head? ≠ some 'u' := by
  cases ds with
  | nil => exact absurd rfl hd
  | cons d ds =>
    intro h
    exact hexDigit_ne_u d (Option.some.inj h)

theorem Escape.digits_ne_nil (e : Escape) : e.digits ≠ [] := by
  intro h
  have := e.four
  simp [h] at this

/-- No escape is the beginning of a different one. -/
theorem Escape.text_append_inj {e f : Escape} {v w : List Char}
    (h : e.text ++ v = f.text ++ w) : e = f ∧ v = w := by
  simp only [text, opening, List.cons_append, List.append_assoc] at h
  obtain ⟨hu, hds⟩ := replicate_append_inj (digits_head_ne_u e.digits_ne_nil v)
    (digits_head_ne_u f.digits_ne_nil w) (List.cons.inj h).2
  have lengths : (e.digits.map HexDigit.char).length = (f.digits.map HexDigit.char).length := by
    simp [e.four, f.four]
  obtain ⟨hd, hvw⟩ := List.append_inj hds lengths
  have digits : e.digits = f.digits := (List.map_inj_right fun _ _ => HexDigit.ext).mp hd
  cases e
  cases f
  simp_all

/-- A backslash with another letter than `u` behind it opens no escape. -/
theorem Escape.text_append_ne {e : Escape} {c : Char} {v w : List Char} (hc : c ≠ 'u') :
    e.text ++ v ≠ '\\' :: c :: w := by
  intro h
  simp only [text, opening, List.replicate_succ, List.cons_append, List.cons.injEq] at h
  exact hc h.2.1.symm

theorem plain_ne_escape {c : Char} (hc : c ≠ '\\') (e : Escape) (v w : List Char) :
    c :: v ≠ e.text ++ w := by
  intro h
  exact hc (List.cons.inj h).1

/-- No piece is the beginning of a different one. -/
theorem Piece.text_append_inj {p q : Piece} {v w : List Char}
    (h : p.text ++ v = q.text ++ w) : p = q ∧ v = w := by
  cases p <;> cases q <;>
    simp only [text, List.cons_append, List.nil_append, List.append_assoc] at h
  case plain.plain | literal.literal => simp_all
  case plain.literal hc _ _ => exact absurd (List.cons.inj h).1 hc
  case literal.plain hc => exact absurd (List.cons.inj h).1.symm hc
  case plain.unit hc _ _ _ => exact absurd h (plain_ne_escape hc _ _ _)
  case plain.pair hc _ _ _ _ => exact absurd h (plain_ne_escape hc _ _ _)
  case unit.plain hc => exact absurd h.symm (plain_ne_escape hc _ _ _)
  case pair.plain hc => exact absurd h.symm (plain_ne_escape hc _ _ _)
  case literal.unit hc _ _ _ => exact absurd h.symm (Escape.text_append_ne hc)
  case literal.pair hc _ _ _ _ => exact absurd h.symm (Escape.text_append_ne hc)
  case unit.literal hc => exact absurd h (Escape.text_append_ne hc)
  case pair.literal hc => exact absurd h (Escape.text_append_ne hc)
  case unit.unit =>
    obtain ⟨he, hv⟩ := Escape.text_append_inj h
    exact ⟨by simp [he], hv⟩
  case unit.pair hhigh hlow _ _ hpair _ =>
    obtain ⟨rfl, hv⟩ := Escape.text_append_inj h
    exact absurd hpair hhigh
  case pair.unit hpair _ _ hhigh _ =>
    obtain ⟨rfl, hv⟩ := Escape.text_append_inj h
    exact absurd hpair hhigh
  case pair.pair =>
    obtain ⟨he, htail⟩ := Escape.text_append_inj h
    obtain ⟨hf, hv⟩ := Escape.text_append_inj htail
    exact ⟨by simp [he, hf], hv⟩

theorem Piece.text_append_ne_nil (p : Piece) (v : List Char) : p.text ++ v ≠ [] := by
  cases p <;> simp [text, Escape.text, opening]

theorem Piece.text_append_ne_backslash (p : Piece) (v : List Char) : p.text ++ v ≠ ['\\'] := by
  cases p with
  | plain c h =>
    intro e
    exact h (List.cons.inj e).1
  | literal c h => simp [text]
  | unit e _ _ => simp [text, Escape.text, opening]
  | pair e f _ _ => simp [text, Escape.text, opening]

theorem Piece.text_append_ne_tail (p : Piece) (v : List Char) (trailing : Bool) :
    p.text ++ v ≠ Spelling.tail trailing := by
  cases trailing with
  | false => exact p.text_append_ne_nil v
  | true => exact p.text_append_ne_backslash v

theorem Spelling.text_injective {s r : Spelling} (h : s.text = r.text) : s = r := by
  obtain ⟨ps, a⟩ := s
  obtain ⟨qs, b⟩ := r
  induction ps generalizing qs with
  | nil =>
    cases qs with
    | nil => cases a <;> cases b <;> first | rfl | cases h
    | cons q qs =>
      rw [text_cons] at h
      exact absurd h.symm (q.text_append_ne_tail _ a)
  | cons p ps ih =>
    cases qs with
    | nil =>
      rw [text_cons] at h
      exact absurd h (p.text_append_ne_tail _ b)
    | cons q qs =>
      rw [text_cons, text_cons] at h
      obtain ⟨rfl, hrest⟩ := Piece.text_append_inj h
      cases ih qs hrest
      rfl

end EscapedText
