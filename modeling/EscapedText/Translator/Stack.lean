import EscapedText.Translator.Finite

/-! Translators over translators, `n` of them over one source. -/
namespace EscapedText

def Stack (σ : Type) : Nat → Type
  | 0 => σ
  | n + 1 => Translator (Stack σ n)

namespace Stack

variable {σ : Type}

instance source [h : Source σ] : (n : Nat) → Source (Stack σ n)
  | 0 => h
  | n + 1 =>
    have : Source (Stack σ n) := source n
    inferInstanceAs (Source (Translator (Stack σ n)))

/-- Fresh translators over `s`. -/
def ofSource (s : σ) : (n : Nat) → Stack σ n
  | 0 => s
  | n + 1 => Translator.ofSource (ofSource s n)

end Stack
end EscapedText
