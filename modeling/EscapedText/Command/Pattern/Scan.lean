import EscapedText.Command.Pattern.Layer
import EscapedText.Text.Alphabetic
import EscapedText.Text.Blank
import EscapedText.Text.Numeric

/-!
Which texts are patterns, read sign by sign. A pattern stands in a field that ends at the first
closing brace, so an open brace outside a set never finds its partner and is refused.
-/
namespace EscapedText.Pattern

/-- Where an atom is due: in a row, in a set, or behind the dash of a range. -/
inductive Place where
  | row
  | set
  | range (first : Char)
deriving DecidableEq

/-- What has been read of the part at hand. -/
inductive Mode where
  | row
  | repeated
  | opened
  | marked
  | named
  | name (read : List Char)
  | switches (read : List Char)
  | escape (p : Place)
  | digits (p : Place) (isByte : Bool) (left value : Nat)
  | setStart (negatable empty : Bool)
  | set
  | setItem (first : Option Char)
  | range (first : Char)
  | pass (count : Nat)
deriving DecidableEq

structure Scan where
  mode : Mode := .row
  comment : Bool := false
  layer : Layer := {}
  outer : List Layer := []
  sets : List SetLayer := []
  names : List (List Char) := []
deriving DecidableEq

namespace Scan

/-- Whether blanks may be skipped here at all. -/
def skips : Mode → Bool
  | .row | .repeated | .opened | .digits _ _ _ _ | .setStart _ _ | .set | .setItem _ | .range _ =>
    true
  | _ => false

def push (s : Scan) (height : Nat) : Scan := { s with mode := .row, layer := s.layer.push height }

/-- Puts a part into the innermost set. -/
def pushItem (s : Scan) (height : Nat) (mode : Mode) : Scan :=
  match s.sets with
  | [] => { s with mode }
  | set :: sets => { s with mode, sets := set.push height :: sets }

def openGroup (s : Scan) (switches : Switches) : Scan :=
  { s with mode := .row, layer := { switches }, outer := s.layer :: s.outer }

def closeGroup? (s : Scan) : Option Scan :=
  match s.outer with
  | [] => none
  | layer :: outer => some ({ s with layer, outer }.push (s.layer.height + 1))

def openSet (s : Scan) : Scan := { s with mode := .setStart true true, sets := {} :: s.sets }

def closeSet? (s : Scan) : Option Scan :=
  match s.sets with
  | [] => none
  | [set] => some ({ s with sets := [] }.push (set.height + 1))
  | set :: sets => some ({ s with sets }.pushItem (set.height + 1) .set)

def operate (s : Scan) : Scan :=
  match s.sets with
  | [] => s
  | set :: sets => { s with mode := .pass 1, sets := set.operate :: sets }

/-- Puts an atom where it is due. A range runs upwards, from character to character. -/
def place? (s : Scan) (p : Place) (a : Atom) : Option Scan :=
  match p, a with
  | .row, a => if s.layer.switches.allows a then some (s.push 0) else none
  | .set, a =>
    if s.layer.switches.allowsInSet a then
      some { s with mode := .setItem (match a with | .char c _ => some c | _ => none) }
    else none
  | .range first, .char last isByte =>
    if first ≤ last ∧ s.layer.switches.allowsInSet (.char last isByte) then
      some (s.pushItem 0 .set)
    else none
  | .range _, _ => none

def rowStep (s : Scan) (c : Char) : Option Scan :=
  match c with
  | '(' => some { s with mode := .opened }
  | ')' => s.closeGroup?
  | '|' => some { s with mode := .row, layer := s.layer.branch }
  | '[' => some s.openSet
  | '?' | '*' | '+' => s.layer.repeated?.map fun layer => { s with mode := .repeated, layer }
  | '\x7b' => none
  | '\\' => some { s with mode := .escape .row }
  | '.' => s.place? .row .any
  | '^' | '$' => s.place? .row .edge
  | c => s.place? .row (.char c false)

/-- Letters of switches, until a colon opens a group with them or a bracket sets them here. -/
def switchStep (s : Scan) (read : List Char) (c : Char) : Option Scan :=
  if c = ':' ∨ c = ')' then
    if read.getLast? = some '-' then none
    else if c = ':' then some (s.openGroup (s.layer.switches.turn read))
    else if read = [] then none
    else some { s with mode := .row, layer := s.layer.turn read }
  else if (c = '-' ∨ c ∈ Switches.letters) ∧ c ∉ read then
    some { s with mode := .switches (read ++ [c]) }
  else none

/-- The name of a group: a letter or low line first, later numbers, dots and brackets as well. No
two groups have the same name. -/
def nameStep (s : Scan) (read : List Char) (c : Char) : Option Scan :=
  if c = '>' then
    if read = [] ∨ read ∈ s.names then none
    else some { s.openGroup s.layer.switches with names := read :: s.names }
  else if c = '_' || Alphabetic.mem c ||
      (read ≠ [] && (Numeric.mem c || ['.', '[', ']'].contains c)) then
    some { s with mode := .name (read ++ [c]) }
  else none

def groupNames : List String :=
  ["alnum", "alpha", "ascii", "blank", "cntrl", "digit", "graph", "lower", "print", "punct",
   "space", "upper", "word", "xdigit"]

/-- A group called by name behind the bracket of a set: whether it is negated, and how many signs
it takes. -/
def namedGroup? (rest : List Char) : Option (Bool × Nat) :=
  groupNames.findSome? fun name =>
    if (":" ++ name ++ ":]").toList.isPrefixOf rest then some (false, name.length + 3)
    else if (":^" ++ name ++ ":]").toList.isPrefixOf rest then some (true, name.length + 4)
    else none

def setStep (s : Scan) (c : Char) (rest : List Char) : Option Scan :=
  if c = '[' then
    match namedGroup? rest with
    | some (negated, count) =>
      if s.layer.switches.allowsNamed negated then some (s.pushItem 0 (.pass count)) else none
    | none => some s.openSet
  else if c = ']' then s.closeSet?
  else if c ∈ ['&', '-', '~'] ∧ rest.head? = some c then some s.operate
  else if c = '\\' then some { s with mode := .escape .set }
  else s.place? .set (.char c false)

/-- In front of its parts a set may be negated, and dashes and a first bracket are characters. -/
def setStartStep (s : Scan) (negatable empty : Bool) (c : Char) (rest : List Char) :
    Option Scan :=
  if negatable ∧ c = '^' then
    if s.layer.switches.unicode then some { s with mode := .setStart false true } else none
  else if c = '-' ∨ (empty ∧ c = ']') then
    if s.layer.switches.allowsInSet (.char c false) then
      some (s.pushItem 0 (if c = '-' then .setStart false false else .set))
    else none
  else s.setStep c rest

/-- The sign behind a dash. Where blanks are skipped, so is the sign of the first comment, though
not the comment itself. -/
def behindDash? (spaced : Bool) (rest : List Char) : Option Char :=
  if spaced then
    match rest.dropWhile Blank.mem with
    | '#' :: comment => ((comment.dropWhile Blank.mem).head?).or rest.head?
    | [] => rest.head?
    | c :: _ => some c
  else rest.head?

/-- A dash behind an item makes a range of it, unless a bracket or another dash follows. -/
def itemStep (s : Scan) (first : Option Char) (c : Char) (rest : List Char) : Option Scan :=
  let next := behindDash? s.layer.switches.spaced rest
  if c = '-' ∧ next ≠ some ']' ∧ next ≠ some '-' then
    first.map fun first => { s with mode := .range first }
  else (s.pushItem 0 .set).setStep c rest

def hexDigit? (c : Char) : Option Nat :=
  if '0' ≤ c ∧ c ≤ '9' then some (c.toNat - 0x30)
  else if 'a' ≤ c ∧ c ≤ 'f' then some (c.toNat - 0x57)
  else if 'A' ≤ c ∧ c ≤ 'F' then some (c.toNat - 0x37)
  else none

def digitStep (s : Scan) (p : Place) (isByte : Bool) (left value : Nat) (c : Char) :
    Option Scan :=
  match hexDigit? c with
  | none => none
  | some d =>
    let value := 16 * value + d
    if 1 < left then some { s with mode := .digits p isByte (left - 1) value }
    else if value.isValidChar then s.place? p (.char (Char.ofNat value) isByte)
    else none

def escapeStep (s : Scan) (p : Place) (c : Char) : Option Scan :=
  match c with
  | 'x' => some { s with mode := .digits p true 2 0 }
  | 'u' => some { s with mode := .digits p false 4 0 }
  | 'U' => some { s with mode := .digits p false 8 0 }
  | c => (Atom.escaped? c).bind (s.place? p)

/-- Reads a sign, with what follows it in sight. -/
def signStep (s : Scan) (c : Char) (rest : List Char) : Option Scan :=
  match s.mode with
  | .row => s.rowStep c
  | .repeated => if c = '?' then some { s with mode := .row } else s.rowStep c
  | .opened =>
    if c = '?' then some { s with mode := .marked }
    else (s.openGroup s.layer.switches).rowStep c
  | .marked =>
    if c = 'P' then some { s with mode := .named }
    else if c = '<' then some { s with mode := .name [] }
    else s.switchStep [] c
  | .named => if c = '<' then some { s with mode := .name [] } else none
  | .name read => s.nameStep read c
  | .switches read => s.switchStep read c
  | .escape p => s.escapeStep p c
  | .digits p isByte left value => s.digitStep p isByte left value c
  | .setStart negatable empty => s.setStartStep negatable empty c rest
  | .set => s.setStep c rest
  | .setItem first => s.itemStep first c rest
  | .range first =>
    if c = '\\' then some { s with mode := .escape (.range first) }
    else s.place? (.range first) (.char c false)
  | .pass count => some { s with mode := if 1 < count then .pass (count - 1) else .set }

/-- Reads a character, which is a sign unless it is skipped. -/
def step (s : Scan) (c : Char) (rest : List Char) : Option Scan :=
  if s.comment then some { s with comment := c ≠ '\n' }
  else if s.layer.switches.spaced && skips s.mode && (Blank.mem c || c = '#') then
    some { s with
      mode := if s.mode = .repeated then .row else s.mode
      comment := c = '#' }
  else s.signStep c rest

def run (s : Scan) : List Char → Option Scan
  | [] => some s
  | c :: rest => (s.step c rest).bind fun s => run s rest

/-- No group, set or escape is open, and nothing nests too deep. -/
def isComplete (s : Scan) : Bool :=
  (s.mode = .row || s.mode = .repeated) && s.outer.isEmpty && s.layer.height ≤ 250

end Scan

def isReadable (cs : List Char) : Bool := (Scan.run {} cs).any Scan.isComplete

end EscapedText.Pattern
