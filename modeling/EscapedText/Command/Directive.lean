import EscapedText.Command.LogRecord
import EscapedText.Command.Pattern.Scan
import EscapedText.Text.Alphanumeric
import EscapedText.Text.Decimal

/-!
Directives `target[span{field=value}]=level`, all parts optional. A directive says which records
it speaks of and how chatty they may be. Records here stand outside any span, so a directive that
names a span or asks for a field's value speaks of none.
-/
namespace EscapedText

/-- `level` is the rank of the chattiest level let through; zero lets nothing through. Of a field's
value only its presence counts. -/
structure Directive where
  target : Option String := none
  span : Option String := none
  fields : List (String × Bool) := []
  level : Nat := Level.trace.rank
deriving DecidableEq

namespace Directive

/-- What is wrong with the text of a directive: it follows no rule, or one of its parts would begin
or end inside a character. -/
inductive Defect where
  | unreadable
  | broken
deriving DecidableEq

/-- A decimal number up to five, with leading zeros and a plus sign allowed. -/
def rankOfNumber? (cs : List Char) : Option Nat :=
  let ds := match cs with
    | '+' :: ds => ds
    | ds => ds
  if ds ≠ [] ∧ ds.all Char.isDigit then
    let n := ds.foldl (fun n d => 10 * n + (d.toNat - '0'.toNat)) 0
    if n ≤ 5 then some n else none
  else none

def rank? (cs : List Char) : Option Nat :=
  match rankOfNumber? cs with
  | some n => some n
  | none =>
    match String.ofList (cs.map Char.toLower) with
    | "" => some Level.error.rank
    | "off" => some 0
    | "error" => some Level.error.rank
    | "warn" => some Level.warn.rank
    | "info" => some Level.info.rank
    | "debug" => some Level.debug.rank
    | "trace" => some Level.trace.rank
    | _ => none

/-- The part being read, with the index of the byte it began at. -/
inductive Part where
  | start
  | head (first : Nat)
  | span (first : Nat)
  | field (first : Nat)
  | fields
  | bracketed
  | level (first : Nat)
deriving DecidableEq

/-- Cuts the text behind its first `n` bytes, unless that is inside a character. -/
def cut : Nat → List Char → Except Defect (List Char × List Char)
  | 0, cs => .ok ([], cs)
  | _, [] => .error .broken
  | n, c :: cs =>
    if c.utf8Size ≤ n then
      (cut (n - c.utf8Size) cs).map fun (before, behind) => (c :: before, behind)
    else .error .broken

/-- The text from byte `first` on. -/
def behind (text : List Char) (first : Nat) : Except Defect (List Char) :=
  (cut first text).map (·.2)

/-- The stretch of `text` from byte `first` up to `last`. -/
def stretch (text : List Char) (first last : Nat) : Except Defect (List Char) :=
  (behind text first).bind fun cs => (cut (last - first) cs).map (·.1)

/-- A field's name, and whether a value is asked for: a number, or else a pattern. Behind a second
equals sign nothing is read. -/
def field (cs : List Char) : Except Defect (String × Bool) :=
  let name := String.ofList (cs.takeWhile (· ≠ '='))
  match cs.dropWhile (· ≠ '=') with
  | [] => .ok (name, false)
  | _ :: rest =>
    let value := rest.takeWhile (· ≠ '=')
    if Decimal.isNumber value || Pattern.isReadable value then .ok (name, true)
    else .error .unreadable

/-- Whether a directive may begin with `c`, the bracket of a span apart. -/
def opens (c : Char) : Bool := ['-', ':', '_'].contains c || Alphanumeric.mem c

def step (text : List Char) (d : Directive) (part : Part) (i : Nat) (c : Char) :
    Except Defect (Directive × Part) :=
  match part with
  | .start =>
    if c = '[' then .ok (d, .span (i + 1))
    else if opens c then .ok (d, .head i)
    else .error .unreadable
  | .head first =>
    if c = '=' ∨ c = '[' then
      (stretch text first i).map fun target =>
        ({ d with target := some (String.ofList target) },
          if c = '=' then .level (i + 1) else .span (i + 1))
    else .ok (d, part)
  | .span first =>
    if c = ']' then
      (stretch text first i).map fun name =>
        ({ d with span := some (String.ofList name) }, .bracketed)
    else if c = '\x7b' then
      (stretch text first i).map fun name =>
        ({ d with span := if name = [] then none else some (String.ofList name) },
          .field (i + 1))
    else .ok (d, part)
  | .field first =>
    if c = '\x7d' then do
      match ← stretch text first i with
      | [] => .error .unreadable
      | cs => (field cs).map fun f => ({ d with fields := d.fields ++ [f] }, .fields)
    else .ok (d, part)
  | .fields => if c = ']' then .ok (d, .bracketed) else .error .unreadable
  | .bracketed => if c = '=' then .ok (d, .level (i + 1)) else .error .unreadable
  | .level _ => .ok (d, part)

/-- Reads on at byte `i`. -/
def readFrom (text : List Char) (d : Directive) (part : Part) (i : Nat) :
    List Char → Except Defect (Directive × Part)
  | [] => .ok (d, part)
  | c :: cs => (step text d part i c).bind fun s => readFrom text s.1 s.2 (i + c.utf8Size) cs

/-- The directive when the text ends. A head alone is a level or else a target. -/
def finish (text : List Char) (d : Directive) : Part → Except Defect Directive
  | .head first =>
    (behind text first).map fun cs =>
      match rank? cs with
      | some n => { d with level := n }
      | none => { d with target := some (String.ofList cs) }
  | .level first => do
    match ← behind text first with
    | [] => .ok d
    | cs =>
      match rank? cs with
      | some n => .ok { d with level := n }
      | none => .error .unreadable
  | .bracketed => .ok d
  | _ => .error .unreadable

/-- Blanks at both ends are not read, but the parts are cut from the text with them. -/
def parse (text : List Char) : Except Defect Directive :=
  (readFrom text {} .start 0 (Blank.trim text)).bind fun s => finish text s.1 s.2

/-- Whether the directive speaks of records outside any span. -/
def isStatic (d : Directive) : Bool := d.span.isNone && d.fields.all fun f => !f.2

def caresAbout (d : Directive) (r : LogRecord) : Bool :=
  d.isStatic &&
    (match d.target with
      | none => true
      | some t => r.target.startsWith t) &&
    d.fields.all fun f => f.1 = "message" || (r.fields.lookup f.1).isSome

/-- Longer targets first, then more fields, then the later in the alphabet. -/
def atLeast (d e : Directive) : Bool :=
  let target := fun (x : Directive) => match x.target with
    | none => 0
    | some t => t.utf8ByteSize + 1
  let names := fun (x : Directive) => x.fields.map (·.1)
  if target d ≠ target e then target e < target d
  else if d.fields.length ≠ e.fields.length then e.fields.length < d.fields.length
  else ¬ names d < names e

end Directive
end EscapedText
