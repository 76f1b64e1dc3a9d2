import EscapedText.Text.GraphemeExtend
import EscapedText.Text.Unprintable

/-!
Quoted characters and texts for messages. What is shown between the quotes has ink and stands
alone; everything else is written as an escape, so a message never hides what was found.
-/
namespace EscapedText.Quoted

def hexEscape (c : Char) : String :=
  "\\u\x7b" ++ String.ofList (Nat.toDigits 16 c.toNat) ++ "\x7d"

/-- A character as it stands between two marks `quote`. -/
def escape (quote c : Char) : String :=
  if c = '\x00' then "\\0"
  else if c = '\t' then "\\t"
  else if c = '\r' then "\\r"
  else if c = '\n' then "\\n"
  else if c = '\\' ∨ c = quote then "\\" ++ String.singleton c
  else if ' ' ≤ c ∧ c ≤ '~' then String.singleton c
  else if GraphemeExtend.mem c || Unprintable.mem c then hexEscape c
  else String.singleton c

def char (c : Char) : String := "'" ++ escape '\'' c ++ "'"

def text (s : String) : String :=
  s.foldl (fun acc c => acc ++ escape '"' c) "\"" ++ "\""

end EscapedText.Quoted
