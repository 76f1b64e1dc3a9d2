/-!
Decimal numbers as they are written: a sign, digits with a point in front, between or behind, and
an exponent. Infinity and what is not a number have words in any case.
-/
namespace EscapedText.Decimal

def unsigned : List Char → List Char
  | '+' :: cs | '-' :: cs => cs
  | cs => cs

def words : List String := ["inf", "infinity", "nan"]

/-- Nothing, or the letter of an exponent with a whole number behind it. -/
def isExponent : List Char → Bool
  | [] => true
  | c :: cs =>
    let digits := unsigned cs
    (c = 'e' || c = 'E') && digits ≠ [] && digits.all Char.isDigit

def isNumber (cs : List Char) : Bool :=
  let cs := unsigned cs
  let whole := cs.takeWhile Char.isDigit
  let rest := cs.dropWhile Char.isDigit
  let (part, rest) := match rest with
    | '.' :: rest => (rest.takeWhile Char.isDigit, rest.dropWhile Char.isDigit)
    | rest => ([], rest)
  words.contains (String.ofList (cs.map Char.toLower)) ||
    (!(whole ++ part).isEmpty && isExponent rest)

end EscapedText.Decimal
