import EscapedText.Proofs.Collecting
import EscapedText.Source.Script

/-!
Interruptions of the source. A fault drops what was scanned of a token, so a reader that tries again
goes on behind the dropped part, and nothing tells it so. What a collector gathers is known from the
input alone: interruptions between tokens leave no trace in it, others take the start of a token
with them.
-/
namespace EscapedText

/-- An interruption has only its message. -/
def Script.entry : Except String Char → Except Fault Item
  | .ok c => .ok (.char c)
  | .error message => .error (.device .interrupted message)

/-- Characters and interruptions in their order, and then the end. -/
def Script.ofInput (es : List (Except String Char)) : Script := { entries := es.map entry }

/-- The input without its interruptions. -/
def quiet (es : List (Except String Char)) : List (Except String Char) := es.filter Except.isOk

/-- No interruption strikes an undecided token, as far as the input is read. A refusal ends that. -/
def Undisturbed : Scan → List (Except String Char) → Prop
  | _, [] => True
  | s, .error _ :: es => s = .fresh ∧ Undisturbed .fresh es
  | s, .ok c :: es =>
    match s.feed (.char c) with
    | .more s' => Undisturbed s' es
    | .settled (.broken _ _) => True
    | .settled _ => Undisturbed .fresh es

/-- The place that a refusal at `p` cites. -/
def cited (b : Bookmarks) (locator : Option Locator) (p : Position) : Position :=
  match locator with
  | none => p
  | some l => (l.consult b).1

def Item.chars : Item → List Char
  | .char c => [c]
  | .ended => []

/-- The characters of an outcome at `p`, and then `rest`, unless it is a refusal. -/
def Outcome.andThen (cite : Position → Position) (p : Position)
    (rest : List Char × Except Failure Unit) : Outcome → List Char × Except Failure Unit
  | .plain i none => (i.chars ++ rest.1, rest.2)
  | .plain i (some held) => (i.chars ++ (held.chars ++ rest.1), rest.2)
  | .decoded c => (c :: rest.1, rest.2)
  | .broken d _ => ([], .error (.refused (.malformed (cite p) d)))

/-- What is gathered of the input from `p` on, where `s` is scanned already. -/
def gather (cite : Position → Position) (p : Position) (s : Scan) :
    List (Except String Char) → List Char × Except Failure Unit
  | [] => s.final.andThen cite p ([], .ok ())
  | .error _ :: es => gather cite p .fresh es
  | .ok c :: es =>
    match s.feed (.char c) with
    | .more s' => gather cite (p.advance c) s' es
    | .settled o => o.andThen cite (p.advance c) (gather cite (p.advance c) .fresh es)

theorem gather_quiet (cite : Position → Position) (p : Position) {s : Scan}
    {es : List (Except String Char)} (h : Undisturbed s es) :
    gather cite p s (quiet es) = gather cite p s es := by
  induction es generalizing p s with
  | nil => rfl
  | cons e es ih =>
    cases e with
    | error message =>
      obtain ⟨rfl, later⟩ := h
      exact ih p later
    | ok c =>
      have kept : quiet (.ok c :: es) = .ok c :: quiet es := rfl
      rw [kept, gather, gather]
      cases hs : s.feed (.char c) with
      | more s' =>
        simp only [Undisturbed, hs] at h
        exact ih (p.advance c) h
      | settled o =>
        simp only [Undisturbed, hs] at h
        cases o with
        | plain i held => exact congrArg (Outcome.andThen cite _ · _) (ih (p.advance c) h)
        | decoded d => exact congrArg (Outcome.andThen cite _ · _) (ih (p.advance c) h)
        | broken d held => rfl

namespace Script

variable {b : Bookmarks} {p : Script}

theorem next_nil (h : p.entries = []) : Source.next b p = ⟨.ok .ended, p, #[]⟩ := by
  have step : Source.next b p = p.next := rfl
  rw [step, next, h]

theorem next_cons {e : Except Fault Item} {es : List (Except Fault Item)}
    (h : p.entries = e :: es) : Source.next b p = ⟨e, { p with entries := es }, #[]⟩ := by
  have step : Source.next b p = p.next := rfl
  rw [step, next, h]

theorem over_nil (h : p.entries = []) : Source.Over b p := by
  refine Source.over_of_invariant (I := fun p : Script => p.entries = []) ?_ h
  intro p h
  rw [next_nil h]
  exact ⟨rfl, h⟩

end Script

namespace Translator

variable {b : Bookmarks} {t w : Translator Script} {events : Array Event}

theorem comes_refused {d : Defect} {held : Option Item}
    (turn : w.next b = settle b t events (.broken d held)) :
    Comes b w [] (.error (.refused (.malformed (cited b t.locator t.position) d))) := by
  have place : (t.cite b).1 = cited b t.locator t.position := by
    unfold cite cited
    cases t.locator <;> rfl
  refine .failed ?_ ?_
  · rw [turn, ← place]
    rfl
  · simp [Failure.toFault, Fault.kind]

/-- At the end of the input only a backslash is still answered. -/
theorem comes_final (s : Scan) (turn : w.next b = settle b t events s.final)
    (opened : t.closed = false) (none : t.source.entries = []) :
    Comes b w (s.final.andThen (cited b t.locator) t.position ([], .ok ())).1
      (s.final.andThen (cited b t.locator) t.position ([], .ok ())).2 := by
  have finished := Script.over_nil (b := b) none
  cases s with
  | fresh =>
    apply Comes.ended
    apply Source.over_of_next
    · exact congrArg (fun turn => Failure.passOn turn.answer) turn
    · have state : (w.next b).state = { t with held := Option.none } := congrArg Turn.state turn
      have later : Source.Over b (w.next b).state := by
        rw [state]
        exact over_of_source opened (.inl rfl) finished
      exact later
  | slash high =>
    cases high with
    | none => exact .of_turn turn (.ended (over_of_source opened (.inr rfl) finished))
    | some high => exact comes_refused turn
  | digits high count value => exact comes_refused turn
  | alone high => exact comes_refused turn

theorem comes_settled {o : Outcome} {cs : List Char} {last : Except Failure Unit}
    (turn : w.next b = settle b t events o) (endless : o.Endless) (opened : t.closed = false)
    (free : t.held = none) (later : Comes b t cs last) :
    Comes b w (o.andThen (cited b t.locator) t.position (cs, last)).1
      (o.andThen (cited b t.locator) t.position (cs, last)).2 := by
  have same : { t with held := none } = t := by rw [← free]
  rw [← same] at later
  cases o with
  | plain i held =>
    cases i with
    | ended => exact absurd rfl endless.1
    | char c =>
      cases held with
      | none => exact .of_turn turn later
      | some i =>
        cases i with
        | ended => exact absurd rfl endless.2
        | char d =>
          have back := next_of_held b (t := { t with held := some (.char d) }) opened rfl
          exact .of_turn turn (.of_turn back later)
  | decoded c => exact .of_turn turn (same ▸ later)
  | broken d held => exact comes_refused turn

theorem comes_gather {es : List (Except String Char)} (s : Scan)
    (turn : w.next b = t.scan b s events) (opened : t.closed = false) (free : t.held = none)
    (ahead : t.source.entries = es.map Script.entry) :
    Comes b w (gather (cited b t.locator) t.position s es).1
      (gather (cited b t.locator) t.position s es).2 := by
  -- `w` is what is asked and `t` what its scan has come to, which changes with every entry.
  induction es generalizing s w t events with
  | nil =>
    have step : Source.next b t.source = _ := Script.next_nil ahead
    rw [scan_settled (congrArg Turn.answer step) s.feed_ended_eq_final, step] at turn
    exact comes_final s turn opened ahead
  | cons e es ih =>
    have step : Source.next b t.source = _ := Script.next_cons ahead
    have rest : (Source.next b t.source).state.entries = es.map Script.entry := by rw [step]
    cases e with
    | error message =>
      rw [scan_fault (congrArg Turn.answer step)] at turn
      refine .again (congrArg Turn.answer turn) rfl ?_
      rw [turn]
      have behind := next_of_free b (t := { t with source := (Source.next b t.source).state })
        opened free
      have later := ih .fresh behind opened free rest
      exact later
    | ok c =>
      rw [gather]
      cases hs : s.feed (.char c) with
      | more s' =>
        rw [scan_more (congrArg Turn.answer step) hs] at turn
        exact ih s' turn opened free rest
      | settled o =>
        rw [scan_settled (congrArg Turn.answer step) hs] at turn
        have behind := next_of_free b (t := t.taking (Source.next b t.source).state (.char c))
          opened free
        have later := ih .fresh behind opened free rest
        exact comes_settled turn (Scan.endless_of_feed hs) opened free later

end Translator

theorem readToEnd_gather (b : Bookmarks) (locator : Option Locator)
    (es : List (Except String Char)) :
    ((ByteView.ofTranslator { source := Script.ofInput es, locator }).readToEnd b).answer =
      (Failure.passOn (gather (cited b locator) .start .fresh es).2,
        ((gather (cited b locator) .start .fresh es).1.flatMap Utf8.encode).toArray) := by
  have comes := Translator.comes_gather .fresh
    (Translator.next_of_free b (t := { source := Script.ofInput es, locator }) rfl rfl) rfl rfl rfl
  exact ByteView.readToEnd_comes comes

/-- Interruptions between tokens leave no trace: what is collected is gathered of the input without
them, and so it is the same as over that input. -/
theorem readToEnd_quiet (b : Bookmarks) (locator : Option Locator)
    (es : List (Except String Char)) (h : Undisturbed .fresh es) :
    ((ByteView.ofTranslator { source := Script.ofInput es, locator }).readToEnd b).answer =
        (Failure.passOn (gather (cited b locator) .start .fresh (quiet es)).2,
          ((gather (cited b locator) .start .fresh (quiet es)).1.flatMap Utf8.encode).toArray) ∧
      ((ByteView.ofTranslator { source := Script.ofInput es, locator }).readToEnd b).answer =
        ((ByteView.ofTranslator { source := Script.ofInput (quiet es), locator }).readToEnd
          b).answer := by
  have gathered := gather_quiet (cited b locator) .start h
  constructor
  · rw [readToEnd_gather, gathered]
  · rw [readToEnd_gather, readToEnd_gather, gathered]

theorem readToEnd_quiet_between_tokens :
    let es := [.error "again", .ok '\\', .ok 'u', .ok '0', .ok '0', .ok '4', .ok '1',
      .error "again", .error "again", .ok 'a']
    Undisturbed .fresh es ∧
      ((ByteView.ofTranslator { source := Script.ofInput es }).readToEnd {}).answer =
        (.ok (), #[0x41, 0x61]) ∧
      ((ByteView.ofTranslator { source := Script.ofInput es }).readToEnd {}).answer =
        ((ByteView.ofTranslator { source := Script.ofInput (quiet es) }).readToEnd {}).answer := by
  intro es
  have undisturbed : Undisturbed .fresh es := ⟨rfl, rfl, rfl, trivial⟩
  exact ⟨undisturbed, readToEnd_quiet {} none es undisturbed⟩

/-- An escape that is struck loses its start, and nothing reports it. -/
theorem readToEnd_struck_escape :
    let struck := [.ok '\\', .ok 'u', .ok '0', .ok '0', .error "again", .ok '4', .ok '1']
    ((ByteView.ofTranslator { source := Script.ofInput struck }).readToEnd {}).answer =
        (.ok (), #[0x34, 0x31]) ∧
      ((ByteView.ofTranslator { source := Script.ofInput (quiet struck) }).readToEnd {}).answer =
        (.ok (), #[0x41]) := by
  intro struck
  rw [readToEnd_gather, readToEnd_gather]
  exact ⟨rfl, rfl⟩

end EscapedText
