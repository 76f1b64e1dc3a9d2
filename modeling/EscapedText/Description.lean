import EscapedText.Source.Origin
import EscapedText.Translator.Stack

/-!
Descriptions of readers for diagnosis: each names its parts in a fixed order, a nested reader
inside the one that reads from it.
-/
namespace EscapedText

class Describe (α : Type) where
  describe : α → String

export Describe (describe)

/-- A name with its fields in braces. -/
def record (name : String) (fields : List (String × String)) : String :=
  name ++ " \x7b " ++ ", ".intercalate (fields.map fun f => f.1 ++ ": " ++ f.2) ++ " \x7d"

def describePresent (value : String) : String := "Some(" ++ value ++ ")"

instance : Describe Position where
  describe p := record "Position"
    [("line", p.line.repr), ("column", p.column.repr), ("offset", p.offset.repr)]

instance : Describe Item where
  describe
    | .char c => "Char(" ++ Quoted.char c ++ ")"
    | .ended => "EndOfInput"

instance : Describe TextSource where
  describe s := record "StrSource"
    [("buffer", Quoted.text s.text), ("current", s.offset.repr)]

instance : Describe ByteSource where
  describe s :=
    let inner := if s.closed then "None"
      else describePresent (record "BufReader" [("reader", "ScriptRead"),
        ("buffer", s.unread.length.repr ++ "/" ++ ReadStep.limit.repr)])
    record "Utf8Source" [("inner", inner), ("offset", s.offset.repr)]

instance : Describe Script where
  describe _ := "ScriptSource"

instance : Describe Origin where
  describe
    | .text s => describe s
    | .bytes s => describe s
    | .script s => describe s

instance {σ : Type} [Describe σ] : Describe (Translator σ) where
  describe t := record "UnicodeEscapeReader"
    [("source", describe t.source),
     ("pending", match t.held with
       | none => "None"
       | some i => describePresent (describe i)),
     ("has_reporter", toString t.locator.isSome),
     ("source_position", describe t.position),
     ("closed", toString t.closed)]

instance Stack.described {σ : Type} [h : Describe σ] : (n : Nat) → Describe (Stack σ n)
  | 0 => h
  | n + 1 =>
    have : Describe (Stack σ n) := Stack.described n
    inferInstanceAs (Describe (Translator (Stack σ n)))

end EscapedText
