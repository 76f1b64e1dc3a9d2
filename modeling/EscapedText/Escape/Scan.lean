import EscapedText.Failure

/-!
Scanning an escape item by item. A scan remembers what it has read of one token; each item either
leaves it undecided or settles it. A settled token may give back the item that settled it, to be
held for the next read, so nothing is ever read twice.

An escape is a backslash, one or more `u` and four digits. A unit that is a high surrogate needs
an escape of a low one right behind it.
-/
namespace EscapedText

/-- What has been read of a token. `high` is the surrogate that waits for its partner. -/
inductive Scan where
  | fresh
  | slash (high : Option CodeUnit)
  | digits (high : Option CodeUnit) (count : Fin 4) (value : CodeUnit)
  | alone (high : CodeUnit)
deriving DecidableEq

inductive Outcome where
  | plain (item : Item) (held : Option Item)
  | decoded (c : Char)
  | broken (defect : Defect) (held : Option Item)
deriving DecidableEq

/-- The item given back. -/
def Outcome.held : Outcome → Option Item
  | .plain _ held => held
  | .decoded _ => none
  | .broken _ held => held

inductive Scan.Step where
  | more (s : Scan)
  | settled (o : Outcome)
deriving DecidableEq

namespace Scan

/-- A backslash without `u` behind it: literal at first, fatal to a waiting surrogate. -/
def literal (high : Option CodeUnit) (i : Item) : Outcome :=
  match high with
  | none => .plain (.char '\\') (some i)
  | some h => .broken (.unpaired h) (some i)

/-- A complete escape of `u`. -/
def complete (high : Option CodeUnit) (u : CodeUnit) : Step :=
  match high with
  | none =>
    if u.isLow then .settled (.broken (.unpaired u) none)
    else if u.isHigh then .more (.alone u)
    else .settled (.decoded u.char)
  | some h =>
    if u.isLow then .settled (.decoded (CodeUnit.pair h u))
    else if u.isHigh then .settled (.broken (.unpaired h) none)
    else .settled (.broken (.unpaired h) (some (.char u.char)))

def digit? : Item → Option CodeUnit
  | .char c => CodeUnit.digit? c
  | .ended => none

def feed (s : Scan) (i : Item) : Step :=
  match s with
  | fresh => if i = .char '\\' then .more (.slash none) else .settled (.plain i none)
  | slash high => if i = .char 'u' then .more (.digits high 0 0) else .settled (literal high i)
  | digits high count value =>
    if count = 0 ∧ i = .char 'u' then .more s
    else
      match digit? i with
      | none => .settled (.broken (.missingDigit i) (some i))
      | some d =>
        if count = 3 then complete high (value.shift d)
        else .more (.digits high (count + 1) (value.shift d))
  | alone h =>
    if i = .char '\\' then .more (.slash (some h))
    else .settled (.broken (.unpaired h) (some i))

/-- Characters in what is held. -/
def weight : Option Item → Nat
  | none => 0
  | some i => i.weight

theorem weight_complete {high : Option CodeUnit} {u : CodeUnit} {o : Outcome}
    (h : complete high u = .settled o) : weight o.held ≤ 1 := by
  unfold complete at h
  repeat' split at h
  all_goals cases h
  all_goals exact Nat.le_of_ble_eq_true rfl

theorem weight_literal (high : Option CodeUnit) (i : Item) :
    weight (literal high i).held = i.weight := by
  cases high <;> rfl

/-- A settled token gives back no more than the item that settled it. -/
theorem weight_held_le {s : Scan} {i : Item} {o : Outcome} (h : s.feed i = .settled o) :
    weight o.held ≤ i.weight := by
  cases s with
  | fresh =>
    simp only [feed] at h
    split at h
    · contradiction
    · cases h; exact Nat.zero_le _
  | slash high =>
    simp only [feed] at h
    split at h
    · contradiction
    · cases h; exact Nat.le_of_eq (weight_literal high i)
  | digits high count value =>
    simp only [feed] at h
    split at h
    · contradiction
    · split at h
      · cases h; exact Nat.le_refl _
      · split at h
        · cases i with
          | char c => exact weight_complete h
          | ended => simp [digit?] at *
        · contradiction
  | alone u =>
    simp only [feed] at h
    split at h
    · contradiction
    · cases h; exact Nat.le_refl _

theorem feed_ended (s s' : Scan) : s.feed .ended ≠ .more s' := by
  cases s <;> simp [feed, digit?]

theorem char_of_feed {s s' : Scan} {i : Item} (h : s.feed i = .more s') : ∃ c, i = .char c := by
  cases i with
  | char c => exact ⟨c, rfl⟩
  | ended => exact absurd h (feed_ended s s')

end Scan
end EscapedText
