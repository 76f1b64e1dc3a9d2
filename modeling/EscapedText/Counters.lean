import EscapedText.Position

/-!
Counters as a machine keeps them, in 64 bits. A build either breaks off where a counter runs over or
lets it begin again at zero; up to there both count alike.
-/
namespace EscapedText

/-- What a build does with a counter that runs over. -/
inductive Build where
  | checking
  | wrapping
deriving DecidableEq

namespace Position

/-- Every counter stays below this. -/
def bound : Nat := 18446744073709551616

def Fits (p : Position) : Prop := p.line < bound ∧ p.column < bound ∧ p.offset < bound

instance (p : Position) : Decidable p.Fits := inferInstanceAs (Decidable (_ ∧ _ ∧ _))

/-- The counters that a machine is left with. -/
def reduced (p : Position) : Position := ⟨p.line % bound, p.column % bound, p.offset % bound⟩

/-- The place past `c`, unless the build breaks off there. -/
def advance? (build : Build) (p : Position) (c : Char) : Option Position :=
  match build with
  | .checking => if (p.advance c).Fits then some (p.advance c) else none
  | .wrapping => some (p.advance c).reduced

/-- The place past all of `cs`, unless the build breaks off on the way. -/
def past? (build : Build) (p : Position) (cs : List Char) : Option Position :=
  cs.foldlM (advance? build) p

theorem reduced_of_fits {p : Position} (h : p.Fits) : p.reduced = p := by
  obtain ⟨line, column, offset⟩ := h
  simp only [reduced, Nat.mod_eq_of_lt line, Nat.mod_eq_of_lt column, Nat.mod_eq_of_lt offset]

theorem fits_reduced (p : Position) : p.reduced.Fits :=
  have positive : 0 < bound := by decide
  ⟨Nat.mod_lt _ positive, Nat.mod_lt _ positive, Nat.mod_lt _ positive⟩

/-- Counting on from what is left comes to the same as counting on. -/
theorem reduced_advance (p : Position) (c : Char) :
    (p.reduced.advance c).reduced = (p.advance c).reduced := by
  unfold advance
  split <;> simp only [reduced, Nat.mod_add_mod, Nat.mod_mod]

theorem reduced_past (p : Position) (cs : List Char) :
    (p.reduced.past cs).reduced = (p.past cs).reduced := by
  induction cs generalizing p with
  | nil => exact reduced_of_fits (fits_reduced p)
  | cons c cs ih => rw [past_cons, past_cons, ← ih, reduced_advance, ih]

theorem past?_cons (build : Build) (p : Position) (c : Char) (cs : List Char) :
    p.past? build (c :: cs) = (p.advance? build c).bind fun q => q.past? build cs := rfl

theorem fits_advance? {build : Build} {p q : Position} {c : Char}
    (h : p.advance? build c = some q) : q.Fits := by
  cases build with
  | checking =>
    obtain ⟨fits, made⟩ := Option.ite_none_right_eq_some.mp h
    exact Option.some.inj made ▸ fits
  | wrapping => exact Option.some.inj h ▸ fits_reduced _

theorem advance?_reduced {build : Build} {p q : Position} {c : Char}
    (h : p.advance? build c = some q) : q = (p.advance c).reduced := by
  cases build with
  | checking =>
    obtain ⟨fits, made⟩ := Option.ite_none_right_eq_some.mp h
    rw [reduced_of_fits fits]
    exact (Option.some.inj made).symm
  | wrapping => exact (Option.some.inj h).symm

/-- A build that gets there is left with the exact counters reduced. -/
theorem past?_reduced {build : Build} {p q : Position} {cs : List Char} (fits : p.Fits)
    (h : p.past? build cs = some q) : q = (p.past cs).reduced := by
  induction cs generalizing p with
  | nil => exact (Option.some.inj h).symm.trans (reduced_of_fits fits).symm
  | cons c cs ih =>
    obtain ⟨r, first, rest⟩ := Option.bind_eq_some_iff.mp h
    rw [ih (fits_advance? first) rest, advance?_reduced first, reduced_past, past_cons]

/-- A build that checks is left with the exact counters. -/
theorem past?_checking {p q : Position} {cs : List Char} (h : p.past? .checking cs = some q) :
    q = p.past cs := by
  induction cs generalizing p with
  | nil => exact (Option.some.inj h).symm
  | cons c cs ih =>
    obtain ⟨r, first, rest⟩ := Option.bind_eq_some_iff.mp h
    obtain ⟨-, made⟩ := Option.ite_none_right_eq_some.mp first
    rw [ih rest, ← Option.some.inj made, past_cons]

end Position
end EscapedText
