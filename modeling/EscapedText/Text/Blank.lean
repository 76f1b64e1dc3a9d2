/-! Blanks: the Unicode property White_Space. -/
namespace EscapedText.Blank

/-- First and last code point of each stretch, ascending and apart. -/
def ranges : Array (Nat × Nat) :=
  #[(0x9, 0xd), (0x20, 0x20), (0x85, 0x85), (0xa0, 0xa0), (0x1680, 0x1680), (0x2000, 0x200a),
    (0x2028, 0x2029), (0x202f, 0x202f), (0x205f, 0x205f), (0x3000, 0x3000)]

def mem (c : Char) : Bool := ranges.any fun r => r.1 ≤ c.toNat && c.toNat ≤ r.2

/-- Without the blanks at both ends. -/
def trim (cs : List Char) : List Char := ((cs.dropWhile mem).reverse.dropWhile mem).reverse

end EscapedText.Blank
