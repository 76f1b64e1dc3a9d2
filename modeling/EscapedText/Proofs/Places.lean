import EscapedText.Proofs.History

/-!
Where refusals stand. A read that refuses an escape asks the locator once, with the bookmarks as
they are, and no other act asks it; without a locator the place is the raw position behind the read.
So the history of a session tells what every refusal cites: the locator attached last, asked as
often before as it has refused since, and the bookmarks after all moves so far.
-/
namespace EscapedText

/-! Bookmarks and the moves made of them. -/

namespace Bookmarks

/-- Where a bookmark at `p` is moved. -/
def Move.place (p : Position) : Move → Position
  | .set q => q
  | .advance c => p.advance c
  | .reset => .start

variable {b : Bookmarks} {m n : Bookmark}

theorem holds_move (move : Move) : (b.move n move).Holds m ↔ b.Holds m := by
  cases move <;> exact holds_set b n m _

theorem get_move (held : b.Holds m) (move : Move) :
    (b.move n move).get m = if n = m then move.place (b.get m) else b.get m := by
  split
  · rename_i same
    subst same
    cases move <;> exact get_set b n _ held
  · rename_i other
    cases move <;> exact get_set_of_ne b n m _ other

end Bookmarks

namespace Act

/-- The bookmarks behind an act. -/
def moving (b : Bookmarks) : Act → Bookmarks
  | .move m step => b.move m step
  | _ => b

def moveOf? (m : Bookmark) : Act → Option Bookmarks.Move
  | .move n step => if n = m then some step else none
  | _ => none

/-- What a bookmark reads is the replay of its own moves, whoever else is moved between them. -/
theorem get_moving {b : Bookmarks} {m : Bookmark} (held : b.Holds m) (h : List Act) :
    (h.foldl moving b).get m =
      (h.filterMap (moveOf? m)).foldl Bookmarks.Move.place (b.get m) := by
  induction h generalizing b with
  | nil => rfl
  | cons a h ih =>
    cases a with
    | read a => exact ih held
    | close => exact ih held
    | locate l => exact ih held
    | move n step =>
      have moved := Bookmarks.get_move (n := n) held step
      have later := ih ((Bookmarks.holds_move (n := n) step).mpr held)
      rw [List.foldl_cons, moving, later, moved]
      by_cases same : n = m
      · simp [moveOf?, same]
      · simp [moveOf?, same]

end Act

/-! Locators and the questions put to them. -/

/-- The locator after one more question. -/
def Locator.again (l : Locator) : Locator := { l with asked := l.asked + 1 }

/-- The locator attached behind an act. -/
def Act.locating (l : Option Locator) : Act → Option Locator
  | .locate l' => some l'
  | .read (.error (.refused (.malformed _ _))) => l.map Locator.again
  | _ => l

namespace Translator

variable {σ : Type}

theorem cite_snd (t : Translator σ) (b : Bookmarks) :
    (t.cite b).2 = t.locator.map Locator.again := by
  unfold cite
  cases t.locator <;> rfl

/-- A refusal of an escape cites what its locator answers, or the raw position behind the turn. -/
structure Cites (b : Bookmarks) (t : Translator σ)
    (turn : Turn (Translator σ) (Except Failure Item)) : Prop where
  place : ∀ p d, turn.answer = .error (.refused (.malformed p d)) →
    p = (cite { t with position := turn.state.position } b).1
  locator : turn.state.locator = Act.locating t.locator (.read turn.answer)

theorem settle_cites (b : Bookmarks) (t : Translator σ) (events : Array Event) (o : Outcome) :
    Cites b t (settle b t events o) := by
  cases o with
  | plain i held => exact ⟨nofun, rfl⟩
  | decoded c => exact ⟨nofun, rfl⟩
  | broken d held =>
    constructor
    · rintro p d ⟨⟩
      rfl
    · exact cite_snd t b

variable [Source σ]

theorem scan_cites (b : Bookmarks) (t : Translator σ) (s : Scan) (events : Array Event) :
    Cites b t (t.scan b s events) := by
  fun_induction scan b t s events with
  | case1 t s events turn all f hf =>
    constructor
    · intro p d refused
      cases refused
    · rfl
  | case2 t s events turn all i hi t' s' hs hlt ih => exact ⟨ih.place, ih.locator⟩
  | case3 t s events turn all i hi t' o hs =>
    have cites := settle_cites b t' all o
    exact ⟨cites.place, cites.locator⟩

theorem next_cites (b : Bookmarks) (t : Translator σ) : Cites b t (t.next b) := by
  unfold next
  split
  · exact ⟨nofun, rfl⟩
  · split
    · exact ⟨nofun, rfl⟩
    · exact scan_cites b t .fresh #[]

theorem close_locator (t : Translator σ) : t.close.state.locator = t.locator := by
  unfold close
  split <;> rfl

end Translator

namespace Session

variable {σ : Type} [Source σ] {s : Session σ} {g h : List Act}

theorem enact_bookmarks (tells : s.Tells h) :
    (s.enact h).bookmarks = h.foldl Act.moving s.bookmarks := by
  refine enact_keeps (P := fun u g => u.bookmarks = g.foldl Act.moving s.bookmarks) (g := [])
    ?_ rfl tells
  intro u g a same _
  rw [List.foldl_append, ← same]
  cases a <;> rfl

theorem enact_locator (tells : s.Tells h) :
    (s.enact h).translator.locator = h.foldl Act.locating s.translator.locator := by
  refine enact_keeps (P := fun u g => u.translator.locator =
    g.foldl Act.locating s.translator.locator) (g := []) ?_ rfl tells
  intro u g a same gives
  rw [List.foldl_append, ← same]
  cases a with
  | read a =>
    have answered : (u.translator.next u.bookmarks).answer = a := gives
    rw [← answered]
    exact (Translator.next_cites u.bookmarks u.translator).locator
  | close => exact Translator.close_locator u.translator
  | locate l => rfl
  | move m move => rfl

/-- The place that a refusal behind `g` cites. -/
theorem refused_place {p : Position} {d : Defect}
    (tells : s.Tells (g ++ .read (.error (.refused (.malformed p d))) :: h)) :
    p = match g.foldl Act.locating s.translator.locator with
      | none => (s.enact (g ++ [.read (.error (.refused (.malformed p d)))])).translator.position
      | some l => l.answer (g.foldl Act.moving s.bookmarks) l.asked := by
  obtain ⟨before, answered, -⟩ := tells_append.mp tells
  have place := (Translator.next_cites (s.enact g).bookmarks (s.enact g).translator).place p d
    answered
  rw [← enact_locator before, ← enact_bookmarks before, enact_append]
  rw [Translator.cite] at place
  cases located : (s.enact g).translator.locator with
  | none =>
    rw [located] at place
    exact place
  | some l =>
    rw [located] at place
    exact place

/-- The act `a` behind `g` is given its answer. It asks the locator attached once if it refuses an
escape and not at all otherwise. A refusal cites what the locator answers, with the bookmarks as
all moves in `g` have left them. -/
structure Placed (s : Session σ) (g : List Act) (a : Act) : Prop where
  tells : s.Tells (g ++ [a])
  asks : (s.enact (g ++ [a])).translator.locator = Act.locating (s.enact g).translator.locator a
  cites : ∀ p d l, a = .read (.error (.refused (.malformed p d))) →
    (s.enact g).translator.locator = some l → p = l.answer (s.enact g).bookmarks l.asked
  replays : ∀ m, s.bookmarks.Holds m → (s.enact g).bookmarks.get m =
    (g.filterMap (Act.moveOf? m)).foldl Bookmarks.Move.place (s.bookmarks.get m)

theorem history_placed {qs : List Request} {g after : List Act} {a : Act}
    (split : s.history qs = g ++ a :: after) : s.Placed g a := by
  obtain ⟨-, tells⟩ := history_told s qs
  rw [split, List.append_cons] at tells
  obtain ⟨upTo, -⟩ := tells_append.mp tells
  obtain ⟨before, -⟩ := tells_append.mp upTo
  refine ⟨upTo, ?_, ?_, ?_⟩
  · rw [enact_locator upTo, enact_locator before, List.foldl_append]
    rfl
  · rintro p d l rfl located
    have place := refused_place upTo
    rw [← enact_locator before, located, ← enact_bookmarks before] at place
    exact place
  · intro m held
    rw [enact_bookmarks before]
    exact Act.get_moving held g

end Session
end EscapedText
