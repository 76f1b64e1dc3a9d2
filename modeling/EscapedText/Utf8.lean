/-!
UTF-8 sequences. A lead byte fixes how many bytes its sequence has; the sequence stands for a
character exactly when encoding that character gives the same bytes back, so overlong forms,
surrogates and values past the last character are no sequences.
-/
namespace EscapedText.Utf8

abbrev encode (c : Char) : List UInt8 := String.utf8EncodeChar c

/-- Bytes in the sequence that `lead` opens, or zero if it opens none. -/
def width (lead : UInt8) : Nat :=
  if lead < 0x80 then 1
  else if lead < 0xC2 then 0
  else if lead < 0xE0 then 2
  else if lead < 0xF0 then 3
  else if lead < 0xF5 then 4
  else 0

def isContinuation (b : UInt8) : Bool := 0x80 ≤ b && b < 0xC0

/-- The number that the payload bits of a sequence spell. -/
def codePoint : List UInt8 → Nat
  | [a] => a.toNat
  | [a, b] => a.toNat % 32 * 64 + b.toNat % 64
  | [a, b, c] => (a.toNat % 16 * 64 + b.toNat % 64) * 64 + c.toNat % 64
  | [a, b, c, d] => ((a.toNat % 8 * 64 + b.toNat % 64) * 64 + c.toNat % 64) * 64 + d.toNat % 64
  | _ => 0

def decode? (bytes : List UInt8) : Option Char :=
  let c := Char.ofNat (codePoint bytes)
  if encode c = bytes then some c else none

theorem encode_ne_nil (c : Char) : encode c ≠ [] := by
  intro h
  have width : (encode c).length = c.utf8Size := String.length_utf8EncodeChar c
  have := c.utf8Size_pos
  simp [h] at width
  omega

theorem codePoint_encode (c : Char) : codePoint (encode c) = c.toNat := by
  have h : c.toNat < 0x110000 := by
    rcases c.valid with h | h
    · exact Nat.lt_trans h (by decide)
    · exact h.2
  have e : c.val.toNat = c.toNat := rfl
  unfold encode String.utf8EncodeChar
  simp only [e]
  split
  · simp only [codePoint, UInt8.toNat_ofNat']
    omega
  · split
    · simp only [codePoint, UInt8.toNat_ofNat']
      omega
    · split
      · simp only [codePoint, UInt8.toNat_ofNat']
        omega
      · simp only [codePoint, UInt8.toNat_ofNat']
        omega

theorem decode?_encode (c : Char) : decode? (encode c) = some c := by
  simp only [decode?, codePoint_encode, Char.ofNat_toNat, if_true]

theorem encode_of_decode? {bytes : List UInt8} {c : Char} (h : decode? bytes = some c) :
    encode c = bytes := by
  simp only [decode?] at h
  split at h
  · cases h; assumption
  · contradiction

end EscapedText.Utf8
