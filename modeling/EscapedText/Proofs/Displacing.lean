import EscapedText.Proofs.Coordinates
import EscapedText.Proofs.Reading

/-!
Reading from another place. A translator without a locator counts on from where it begins and looks
at its place only to cite it. So one that begins elsewhere answers the same, but for the places it
cites, and these are where the text puts them behind the new beginning.
-/
namespace EscapedText

namespace Position

/-- The place `q` of a text that begins at `p`. Only its first line is moved to the side. -/
def behind (p q : Position) : Position where
  line := p.line + (q.line - 1)
  column := if q.line = 1 then p.column + (q.column - 1) else q.column
  offset := p.offset + q.offset

theorem behind_advance (p : Position) {q : Position} (c : Char) (line : 1 ≤ q.line)
    (column : 1 ≤ q.column) : p.behind (q.advance c) = (p.behind q).advance c := by
  unfold advance behind
  split
  · have lines : p.line + (q.line + 1 - 1) = p.line + (q.line - 1) + 1 := by omega
    have later : q.line + 1 ≠ 1 := by omega
    simp only [lines, if_neg later, Nat.add_assoc]
  · split
    · have columns : p.column + (q.column + 1 - 1) = p.column + (q.column - 1) + 1 := by omega
      simp only [columns, Nat.add_assoc]
    · simp only [Nat.add_assoc]

theorem past_eq_behind (p : Position) (cs : List Char) :
    p.past cs = p.behind (start.past cs) := by
  induction cs using List.reverseRecOn with
  | nil => rfl
  | append_singleton cs c ih =>
    have line : 1 ≤ (start.past cs).line := by
      rw [past_start]
      exact Nat.le_add_right 1 _
    have column : 1 ≤ (start.past cs).column := by
      rw [past_start]
      exact Nat.le_add_right 1 _
    rw [past_concat, past_concat, behind_advance p c line column, ih]

end Position

/-- The failure of a text that begins at `p`. -/
def Failure.behind (p : Position) : Failure → Failure
  | .refused (.malformed q d) => .refused (.malformed (p.behind q) d)
  | .refused .closed => .refused .closed
  | .source f => .source f

def Translator.answerBehind (p : Position) (a : Except Failure Item) : Except Failure Item :=
  a.mapError (Failure.behind p)

namespace Translator

variable {σ : Type} {b : Bookmarks} {p : Position} {t u : Translator σ}

/-- Both have come past the same characters, `t` from the start and `u` from `p`. -/
structure Displaced (p : Position) (t u : Translator σ) : Prop where
  unlocated : t.locator = none
  passed : ∃ cs, t.position = Position.start.past cs ∧ u = { t with position := p.past cs }

/-- Turns of the two, of which one cites places behind `p`. -/
structure Moved (p : Position) (turn turn' : Turn (Translator σ) (Except Failure Item)) : Prop where
  answer : turn'.answer = answerBehind p turn.answer
  state : Displaced p turn.state turn'.state

theorem settle_displaced (h : Displaced p t u) (events events' : Array Event) (o : Outcome) :
    Moved p (settle b t events o) (settle b u events' o) := by
  obtain ⟨none, cs, place, rfl⟩ := h
  cases o with
  | plain i held => exact ⟨rfl, none, cs, place, rfl⟩
  | decoded c => exact ⟨rfl, none, cs, place, rfl⟩
  | broken d held =>
    have here : t.cite b = (t.position, Option.none) := by rw [cite, none]
    have there : cite { t with position := p.past cs } b = (p.past cs, Option.none) := by
      rw [cite, none]
    constructor
    · simp only [settle, here, there, place]
      rw [Position.past_eq_behind]
      rfl
    · simp only [settle, here, there]
      exact ⟨rfl, cs, place, rfl⟩

theorem taking_displaced (h : Displaced p t u) (source : σ) (i : Item) :
    Displaced p (t.taking source i) (u.taking source i) := by
  obtain ⟨none, cs, place, rfl⟩ := h
  cases i with
  | ended => exact ⟨none, cs, place, rfl⟩
  | char c =>
    refine ⟨none, cs ++ [c], ?_, ?_⟩
    · rw [Position.past_concat, ← place]
      rfl
    · rw [Position.past_concat]
      rfl

variable [Source σ]

theorem scan_displaced (s : Scan) (events : Array Event) :
    ∀ (u : Translator σ) (events' : Array Event), Displaced p t u →
      Moved p (t.scan b s events) (u.scan b s events') := by
  fun_induction scan b t s events with
  | case1 t s events turn all f fault =>
    intro u events' h
    obtain ⟨none, cs, place, rfl⟩ := h
    rw [scan_fault (t := { t with position := p.past cs }) fault]
    exact ⟨rfl, none, cs, place, rfl⟩
  | case2 t s events turn all i answer t' s' more smaller ih =>
    intro u events' h
    have later := taking_displaced h turn.state i
    obtain ⟨none, cs, place, rfl⟩ := h
    rw [scan_more (t := { t with position := p.past cs }) answer more]
    exact ih _ _ later
  | case3 t s events turn all i answer t' o settled =>
    intro u events' h
    have later := taking_displaced h turn.state i
    obtain ⟨none, cs, place, rfl⟩ := h
    rw [scan_settled (t := { t with position := p.past cs }) answer settled]
    exact settle_displaced later all _ o

theorem next_displaced (h : Displaced p t u) (b : Bookmarks) : Moved p (t.next b) (u.next b) := by
  have same : u.closed = t.closed ∧ u.held = t.held := by
    obtain ⟨-, cs, -, rfl⟩ := h
    exact ⟨rfl, rfl⟩
  unfold next
  rw [same.1, same.2]
  split
  · exact ⟨rfl, h⟩
  · cases t.held with
    | none => exact scan_displaced .fresh #[] u #[] h
    | some i =>
      obtain ⟨none, cs, place, rfl⟩ := h
      exact ⟨rfl, none, cs, place, rfl⟩

theorem reads_displaced (h : Displaced p t u) (bs : List Bookmarks) :
    (u.reads bs).1 = (t.reads bs).1.map (answerBehind p) := by
  induction bs generalizing t u with
  | nil => rfl
  | cons b bs ih =>
    obtain ⟨answer, later⟩ := next_displaced h b
    rw [reads, reads, answer, ih later]
    rfl

end Translator
end EscapedText
