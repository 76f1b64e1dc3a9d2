/-!
UTF-16 code units: the unit that four hexadecimal digits spell, the character that one unit or a
surrogate pair stands for, and a unit written as digits.
-/
namespace EscapedText

abbrev CodeUnit := UInt16

namespace CodeUnit

def isHigh (u : CodeUnit) : Bool := 0xD800 ≤ u && u ≤ 0xDBFF

def isLow (u : CodeUnit) : Bool := 0xDC00 ≤ u && u ≤ 0xDFFF

/-- The value of a digit of either case; only ASCII digits count. -/
def digit? (c : Char) : Option CodeUnit :=
  if '0' ≤ c ∧ c ≤ '9' then some (c.toNat - '0'.toNat).toUInt16
  else if 'a' ≤ c ∧ c ≤ 'f' then some (c.toNat - 'a'.toNat + 10).toUInt16
  else if 'A' ≤ c ∧ c ≤ 'F' then some (c.toNat - 'A'.toNat + 10).toUInt16
  else none

/-- `u` with one more digit behind it. -/
def shift (u d : CodeUnit) : CodeUnit := u * 16 + d

/-- The character of a unit that is no surrogate. -/
def char (u : CodeUnit) : Char := Char.ofNat u.toNat

/-- The character of a high and a low surrogate. -/
def pair (high low : CodeUnit) : Char :=
  Char.ofNat (0x10000 + (high.toNat - 0xD800) * 0x400 + (low.toNat - 0xDC00))

def hexDigit (n : Nat) : Char :=
  if n < 10 then Char.ofNat ('0'.toNat + n) else Char.ofNat ('A'.toNat + (n - 10))

/-- Four upper-case digits. -/
def hex (u : CodeUnit) : String :=
  String.ofList ([12, 8, 4, 0].map fun s => hexDigit ((u.toNat >>> s) % 16))

end CodeUnit
end EscapedText
