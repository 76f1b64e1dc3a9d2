import EscapedText.Proofs.Streaming

/-!
Starts of tokens that nothing has settled yet: a lone backslash, an escape that breaks off before
its fourth digit, and either of these behind a high surrogate, or that surrogate alone. They are
just what a scan can have read of a token when it is still open, so any text is whole tokens with at
most one such start behind them.
-/
namespace EscapedText

inductive Start : List Char → Prop where
  | slash : Start ['\\']
  | stub (s : Stub) : Start s.text

inductive Undecided : List Char → Prop where
  | start {r : List Char} (h : Start r) : Undecided r
  | high (e : Escape) (h : IsHigh e.value) : Undecided e.text
  | behind (e : Escape) (h : IsHigh e.value) {r : List Char} (hr : Start r) :
    Undecided (e.text ++ r)

namespace Scan

/-- The scan behind `v`, if nothing in it settles the token. -/
def reach? (s : Scan) : List Char → Option Scan
  | [] => some s
  | c :: v =>
    match s.feed (.char c) with
    | .more s' => s'.reach? v
    | .settled _ => none

variable {s s' : Scan} {v w : List Char}

theorem reach?_more {c : Char} (h : s.feed (.char c) = .more s') :
    s.reach? (c :: v) = s'.reach? v := by
  simp only [reach?, h]

theorem reach?_settled {c : Char} {o : Outcome} (h : s.feed (.char c) = .settled o) :
    s.reach? (c :: v) = none := by
  simp only [reach?, h]

theorem through_of_reach (h : s.reach? v = some s') : s.through v = (s'.final, []) := by
  induction v generalizing s with
  | nil =>
    cases h
    rfl
  | cons c v ih =>
    rw [through_cons]
    cases hs : s.feed (.char c) with
    | more t =>
      rw [reach?_more hs] at h
      exact ih h
    | settled o =>
      rw [reach?_settled hs] at h
      contradiction

theorem reach_of_append (h : s.reach? (v ++ w) = some s') : ∃ t, s.reach? v = some t := by
  induction v generalizing s with
  | nil => exact ⟨s, rfl⟩
  | cons c v ih =>
    cases hs : s.feed (.char c) with
    | more t =>
      rw [List.cons_append, reach?_more hs] at h
      rw [reach?_more hs]
      exact ih h
    | settled o =>
      rw [List.cons_append, reach?_settled hs] at h
      contradiction

/-- The last character of the list settles the scan, and none before it does. -/
inductive Settles (s : Scan) : List Char → Outcome → Prop where
  | last (v : List Char) (c : Char) {t : Scan} {o : Outcome} (reach : s.reach? v = some t)
    (fed : t.feed (.char c) = .settled o) : Settles s (v ++ [c]) o

theorem Settles.endless {o : Outcome} (h : Settles s w o) : o.Endless := by
  cases h with
  | last v c reach fed => exact endless_of_feed fed

theorem reach_or_settles (s : Scan) (v : List Char) :
    (∃ t, s.reach? v = some t) ∨
      ∃ w rest o, v = w ++ rest ∧ Settles s w o ∧ s.through v = (o, rest) := by
  induction v generalizing s with
  | nil => exact .inl ⟨s, rfl⟩
  | cons c v ih =>
    have first := through_cons s c v
    cases hs : s.feed (.char c) with
    | settled o =>
      rw [hs] at first
      exact .inr ⟨[c], v, o, rfl, .last [] c rfl hs, first⟩
    | more t =>
      rw [hs] at first
      rcases ih t with ⟨u, hu⟩ | ⟨w, rest, o, rfl, ⟨x, d, reach, fed⟩, through⟩
      · exact .inl ⟨u, (reach?_more hs).trans hu⟩
      · have reach : s.reach? (c :: x) = some _ := (reach?_more hs).trans reach
        exact .inr ⟨_, rest, o, rfl, .last (c :: x) d reach fed, first.trans through⟩

/-- What the end of the input settles holds that end back, so no character can have settled it. -/
theorem reach_of_through (ended : (s.through v).1.held = some .ended) :
    ∃ t, s.reach? v = some t := by
  rcases reach_or_settles s v with reach | ⟨w, rest, o, -, settles, through⟩
  · exact reach
  · rw [through] at ended
    have endless := settles.endless
    cases o with
    | plain i held => exact absurd ended endless.2
    | decoded c => contradiction
    | broken d held => exact absurd ended endless

theorem held_final (s : Scan) : s.final = .plain .ended none ∨ s.final.held = some .ended := by
  cases s with
  | fresh => exact .inl rfl
  | slash high => cases high <;> exact .inr rfl
  | digits high count value => exact .inr rfl
  | alone high => exact .inr rfl

end Scan

open Scan

theorem Stub.endsAt_nil (s : Stub) : s.EndsAt [] := ⟨nofun, nofun⟩

theorem held_through_start {r : List Char} (h : Start r) (high : Option CodeUnit) :
    ((awaiting high).through r).1.held = some .ended := by
  cases h with
  | slash => cases high <;> rfl
  | stub s =>
    have stub := through_stub high s s.endsAt_nil
    rw [List.append_nil] at stub
    rw [stub]
    rfl

theorem reach_of_undecided {r : List Char} (h : Undecided r) : ∃ s, fresh.reach? r = some s := by
  apply reach_of_through
  cases h with
  | start h => exact held_through_start h none
  | high e h =>
    have alone := through_high h []
    rw [List.append_nil] at alone
    rw [alone]
    rfl
  | @behind e h r hr =>
    rw [through_high h]
    exact held_through_start hr (some e.unit)

theorem undecided_of_reach {r : List Char} {s : Scan} (h : fresh.reach? r = some s) :
    r = [] ∨ Undecided r := by
  have through := through_of_reach h
  have held := held_final s
  rcases begins r with rfl | rfl | ⟨p, w, rfl⟩ | ⟨d, i, rest, broken⟩
  · exact .inl rfl
  · exact .inr (.start .slash)
  · have final := congrArg Prod.fst ((through_piece p w).symm.trans through)
    have final : p.outcome = s.final := final
    rw [← final] at held
    cases p <;> simp [Piece.outcome, Outcome.held] at held
  · have final := congrArg Prod.fst ((through_broken broken).symm.trans through)
    have final : .broken d i = s.final := final
    rw [← final] at held
    -- Only the end of the input can have broken the escape, so nothing is left behind it.
    have ended : i = some .ended := by simpa [Outcome.held] using held
    have none_of_first {v : List Char} (first : some (Item.first v) = some .ended) : v = [] := by
      cases v <;> simp_all [Item.first]
    right
    cases broken with
    | short s hs =>
      rw [none_of_first ended, List.append_nil]
      exact .start (.stub s)
    | low e v he => contradiction
    | alone e he hv =>
      rw [none_of_first ended, List.append_nil]
      exact .high e he
    | slash e he hv =>
      rw [none_of_first ended]
      exact .behind e he .slash
    | shortLow e s he hs =>
      rw [none_of_first ended, List.append_nil]
      exact .behind e he (.stub s)
    | unit e f v he high low => simp at ended
    | high e f v he hf => contradiction

end EscapedText
