import EscapedText.Proofs.History
import EscapedText.Proofs.Interruptions
import EscapedText.Proofs.Spending
import EscapedText.Translator.Stack
import Mathlib.Logic.Relation

/-!
The end of the input lasts. Let a source answer the end for good once it has answered it. Then so
does a translator over it: the end may come inside an escape and be held back behind a character or
a refusal, but it is held only when the source has ended, and answered only then. So translators
stack without losing the end.
-/
namespace EscapedText

namespace Source

variable {σ : Type} [Source σ] {b : Bookmarks} {s u v : σ}

/-- Reads of `s` lead to `u`, whatever the bookmarks are for each. -/
def Reaches : σ → σ → Prop := Relation.ReflTransGen fun s u => ∃ b, (next b s).state = u

theorem Reaches.next (h : Reaches s u) (b : Bookmarks) : Reaches s (next b u).state :=
  .tail h ⟨b, rfl⟩

theorem reaches_next (b : Bookmarks) (s : σ) : Reaches s (Source.next b s).state :=
  .single ⟨b, rfl⟩

/-- What every read keeps holds of all that is reached. -/
theorem Reaches.keeps {P : σ → Prop} (keeps : ∀ b s, P s → P (Source.next b s).state)
    (reaches : Reaches s u) (h : P s) : P u := by
  induction reaches with
  | refl => exact h
  | tail path step ih =>
    obtain ⟨b, rfl⟩ := step
    exact keeps b _ ih

/-- All reads from `s` on are answered the end. -/
def Ended (s : σ) : Prop := ∀ u b, Reaches s u → (next b u).answer = .ok .ended

/-- A source that has answered the end answers it for good. -/
def Lasting (s : σ) : Prop :=
  ∀ u b, Reaches s u → (next b u).answer = .ok .ended → Ended (next b u).state

/-- Reads of `s` lead to `v`, and one of them was answered the end. -/
def PastEnd (s v : σ) : Prop :=
  ∃ u b, Reaches s u ∧ (next b u).answer = .ok .ended ∧ Reaches (next b u).state v

theorem Ended.next (h : Ended s) (b : Bookmarks) : Ended (next b s).state :=
  fun u b' path => h u b' ((reaches_next b s).trans path)

theorem ended_of_invariant {F : σ → Prop}
    (final : ∀ b s, F s → (Source.next b s).answer = .ok .ended ∧ F (Source.next b s).state)
    (h : F s) : Ended s := by
  intro u b path
  exact (final b u (path.keeps (fun b s h => (final b s h).2) h)).1

theorem lasting_of_invariant {I F : σ → Prop}
    (keeps : ∀ b s, I s → I (Source.next b s).state)
    (ends : ∀ b s, I s → (Source.next b s).answer = .ok .ended → F (Source.next b s).state)
    (final : ∀ b s, F s → (Source.next b s).answer = .ok .ended ∧ F (Source.next b s).state)
    (h : I s) : Lasting s := by
  intro u b path answer
  exact ended_of_invariant final (ends b u (path.keeps keeps h) answer)

theorem Lasting.ended (lasting : Lasting s) (h : PastEnd s v) : Ended v := by
  obtain ⟨u, b, path, answer, later⟩ := h
  exact later.keeps (fun b _ ended => ended.next b) (lasting u b path answer)

end Source

open Source (Reaches Ended Lasting PastEnd)

/-! Translators. -/

/-- What the end of the input settles is the end itself only where nothing was scanned. -/
theorem Scan.final_ended {s : Scan} {held : Option Item} (h : s.final = .plain .ended held) :
    held = none := by
  cases s with
  | fresh =>
    cases h
    rfl
  | slash high => cases high <;> cases h
  | digits high count value | alone high => cases h

namespace Translator

variable {σ : Type} [Source σ] {b : Bookmarks} {s : σ} {t : Translator σ}

/-- `t` stands over what reads of `s` have led to, and holds the end only behind the end of `s`. -/
structure Faithful (s : σ) (t : Translator σ) : Prop where
  reached : Reaches s t.source
  held : t.held = some .ended → PastEnd s t.source

/-- Nothing but the end is to come. -/
structure Finished (t : Translator σ) : Prop where
  opened : t.closed = false
  held : t.held = none ∨ t.held = some .ended
  ahead : Ended t.source

/-- A turn behind which `t` is faithful, and has come past the end if it has answered that. -/
structure Honest (s : σ) (turn : Turn (Translator σ) (Except Failure Item)) : Prop where
  faithful : Faithful s turn.state
  ended : turn.answer = .ok .ended → turn.state.held = none ∧ PastEnd s turn.state.source

theorem settle_honest (reached : Reaches s t.source) (free : t.held = none)
    (events : Array Event) {o : Outcome}
    (back : o.held = some .ended → PastEnd s t.source)
    (answer : ∀ held, o = .plain .ended held → held = none ∧ PastEnd s t.source) :
    Honest s (settle b t events o) := by
  have unheld : t.held = some .ended → PastEnd s t.source := by
    rw [free]
    nofun
  cases o with
  | plain i held =>
    refine ⟨⟨reached, back⟩, ?_⟩
    rintro ⟨⟩
    exact answer held rfl
  | decoded c => exact ⟨⟨reached, unheld⟩, nofun⟩
  | broken d held => exact ⟨⟨reached, back⟩, nofun⟩

theorem scan_honest (reached : Reaches s t.source) (free : t.held = none) (x : Scan)
    (events : Array Event) : Honest s (t.scan b x events) := by
  fun_induction scan b t x events with
  | case1 t x events turn all f fault =>
    refine ⟨⟨reached.next b, ?_⟩, ?_⟩
    · intro held
      cases free.symm.trans held
    · intro ended
      cases ended
  | case2 t x events turn all i answer t' x' more smaller ih => exact ih (reached.next b) free
  | case3 t x events turn all i answer t' o settled =>
    cases i with
    | char c =>
      -- A character never settles a scan with the end.
      have endless := Scan.endless_of_feed settled
      refine settle_honest (t := t') (reached.next b) free all ?_ ?_
      · intro back
        cases o with
        | plain i held => exact absurd back endless.2
        | decoded c => cases back
        | broken d held => exact absurd back endless
      · rintro held rfl
        exact absurd rfl endless.1
    | ended =>
      have past : PastEnd s turn.state := ⟨t.source, b, reached, answer, .refl⟩
      refine settle_honest (t := t') (reached.next b) free all ?_ ?_
      · exact fun _ => past
      · rintro held rfl
        rw [Scan.feed_ended_eq_final] at settled
        exact ⟨Scan.final_ended (Scan.Step.settled.inj settled), past⟩

theorem next_honest (opened : t.closed = false) (h : Faithful s t) (b : Bookmarks) :
    Honest s (t.next b) := by
  cases held : t.held with
  | none =>
    rw [next_of_free b opened held]
    exact scan_honest h.reached held .fresh #[]
  | some i =>
    rw [next_of_held b opened held]
    refine ⟨⟨h.reached, nofun⟩, ?_⟩
    rintro ⟨⟩
    exact ⟨rfl, h.held held⟩

theorem next_closed (b : Bookmarks) (t : Translator σ) : (t.next b).state.closed = t.closed :=
  (next_keeps (P := fun _ => True) (fun _ _ _ => trivial) b trivial).2

theorem next_faithful (h : Faithful s t) (b : Bookmarks) : Faithful s (t.next b).state := by
  cases shut : t.closed with
  | true =>
    rw [next_of_closed shut]
    exact h
  | false => exact (next_honest shut h b).faithful

theorem opened_of_next {i : Item} (answer : (t.next b).answer = .ok i) : t.closed = false := by
  cases shut : t.closed with
  | true =>
    rw [next_of_closed shut] at answer
    cases answer
  | false => rfl

theorem finished_of_next (lasting : Lasting s) (h : Faithful s t)
    (answer : (t.next b).answer = .ok .ended) : Finished (t.next b).state := by
  have opened := opened_of_next answer
  obtain ⟨free, past⟩ := (next_honest opened h b).ended answer
  exact ⟨(next_closed b t).trans opened, .inl free, lasting.ended past⟩

theorem next_finished (h : Finished t) (b : Bookmarks) :
    (t.next b).answer = .ok .ended ∧ Finished (t.next b).state := by
  have ended : (Source.next b t.source).answer = .ok .ended := h.ahead t.source b .refl
  obtain ⟨source, events, behind, turn⟩ := next_at_end h.opened h.held ended
  rw [turn]
  refine ⟨rfl, h.opened, .inl rfl, ?_⟩
  rcases behind with rfl | rfl
  · exact h.ahead
  · exact h.ahead.next b

theorem faithful_ofSource (s : σ) : Faithful s (ofSource s) := ⟨.refl, nofun⟩

/-- A translator over such a source is one again. -/
theorem lasting_ofSource (lasting : Lasting s) : Lasting (ofSource s) := by
  apply Source.lasting_of_invariant (I := Faithful s) (F := Finished)
  · exact fun b t h => next_faithful h b
  · exact fun b t h passed => finished_of_next lasting h (next_of_nextItem passed)
  · intro b t h
    obtain ⟨answer, later⟩ := next_finished h b
    exact ⟨congrArg Failure.passOn answer, later⟩
  · exact faithful_ofSource s

end Translator

/-! Sources that last. -/

theorem Stack.lasting {σ : Type} [Source σ] {s : σ} (lasting : Lasting s) (n : Nat) :
    Lasting (Stack.ofSource s n) := by
  induction n with
  | zero => exact lasting
  | succ n ih => exact Translator.lasting_ofSource ih

theorem TextSource.lasting (s : TextSource) : Lasting s := by
  apply Source.lasting_of_invariant (I := fun _ => True) (F := fun s => s.unread = [])
  · exact fun _ _ _ => trivial
  · intro b s _ answer
    cases unread : s.unread with
    | nil =>
      rw [source_next_nil b unread]
      exact unread
    | cons c v =>
      obtain ⟨s', step, -⟩ := source_next_cons b unread
      rw [step] at answer
      cases answer
  · intro b s unread
    rw [source_next_nil b unread]
    exact ⟨rfl, unread⟩
  · trivial

theorem TextSource.ended {s : TextSource} (unread : s.unread = []) : Ended s := by
  refine Source.ended_of_invariant (F := fun s : TextSource => s.unread = []) ?_ unread
  intro b s unread
  rw [source_next_nil b unread]
  exact ⟨rfl, unread⟩

/-- A script without an end among its entries ends only behind them. -/
theorem Script.lasting {p : Script} (entries : ∀ e ∈ p.entries, e ≠ .ok .ended) : Lasting p := by
  apply Source.lasting_of_invariant (I := fun p : Script => ∀ e ∈ p.entries, e ≠ .ok .ended)
    (F := fun p : Script => p.entries = [])
  · intro b p entries
    cases ahead : p.entries with
    | nil =>
      rw [next_nil ahead]
      exact entries
    | cons e es =>
      rw [next_cons ahead]
      exact fun e' mem => entries e' (ahead ▸ List.mem_cons_of_mem e mem)
  · intro b p entries answer
    cases ahead : p.entries with
    | nil =>
      rw [next_nil ahead]
      exact ahead
    | cons e es =>
      rw [next_cons ahead] at answer
      exact absurd answer (entries e (ahead ▸ List.mem_cons_self))
  · intro b p ahead
    rw [next_nil ahead]
    exact ⟨rfl, ahead⟩
  · exact entries

/-- The device has nothing to give, without a fault. -/
def ReadStep.Barren : ReadStep → Prop
  | .bytes bs => bs = []
  | .dry => True
  | .failed _ => False

theorem ReadStep.cues_barren {step : ReadStep} (h : step.Barren) : step.cues = [.dry] := by
  cases step with
  | bytes bs =>
    cases h
    rfl
  | dry => rfl
  | failed f => cases h

theorem ReadStep.barren_of_dry {step : ReadStep} (h : .dry ∈ step.cues) : step.Barren := by
  cases step with
  | bytes bs =>
    cases bs with
    | nil => rfl
    | cons b bs => simp [cues] at h
  | dry => trivial
  | failed f => simp [cues] at h

/-- Where the device once has nothing, it stays so. -/
def StaysAtEnd (device : List ReadStep) : Prop :=
  device.Pairwise fun step later => step.Barren → later.Barren

namespace ByteSource

/-- Behind a pause there are only pauses. -/
def Settled (cs : List Cue) : Prop := cs.Pairwise fun x y => x = .dry → y = .dry

theorem settled_ofDevice {device : List ReadStep} (stays : StaysAtEnd device) :
    Settled (ofDevice device).ahead := by
  refine List.pairwise_flatMap.mpr ⟨?_, stays.imp ?_⟩
  · intro step _
    cases step with
    | bytes bs =>
      cases bs with
      | nil => exact List.pairwise_singleton ..
      | cons b bs =>
        refine List.pairwise_of_forall_mem_list ?_
        intro x mem y _ dry
        simp [ReadStep.cues, dry] at mem
    | dry | failed f => exact List.pairwise_singleton ..
  · intro step later nothing x mem y mem' dry
    subst dry
    rw [ReadStep.cues_barren (nothing (ReadStep.barren_of_dry mem))] at mem'
    exact List.mem_singleton.mp mem'

theorem read_barren {s : ByteSource} (opened : s.closed = false) (all : ∀ x ∈ s.ahead, x = .dry) :
    s.read.1 = .ok .ended := by
  rw [(read_takes opened).answer]
  cases ahead : s.ahead with
  | nil => rfl
  | cons x cs =>
    rw [all x (ahead ▸ List.mem_cons_self)]
    rfl

theorem lasting_ofDevice {device : List ReadStep} (stays : StaysAtEnd device) :
    Lasting (ofDevice device) := by
  apply Source.lasting_of_invariant
    (I := fun s : ByteSource => s.closed = false ∧ Settled s.ahead)
    (F := fun s : ByteSource => s.closed = false ∧ ∀ x ∈ s.ahead, x = .dry)
  · rintro b s ⟨opened, settled⟩
    exact ⟨s.read_closed.trans opened, settled.sublist s.read_suffix.sublist⟩
  · rintro b s ⟨opened, settled⟩ answer
    refine ⟨s.read_closed.trans opened, ?_⟩
    have answer : s.read.1 = .ok .ended := answer
    have left : (Source.next b s).state.ahead = s.read.2.ahead := rfl
    have takes := read_takes opened
    rw [left, takes.ahead]
    rcases Cue.portion_ended (takes.answer.symm.trans answer) with ahead | ⟨rest, ahead⟩
    · rw [ahead]
      nofun
    · rw [ahead] at settled ⊢
      exact fun x mem => (List.pairwise_cons.mp settled).1 x mem rfl
  · rintro b s ⟨opened, all⟩
    refine ⟨read_barren opened all, s.read_closed.trans opened, ?_⟩
    exact fun x mem => all x (s.read_suffix.subset mem)
  · exact ⟨rfl, settled_ofDevice stays⟩

end ByteSource

/-! Sessions. -/

namespace Session

variable {σ : Type} [Source σ] {s : σ} {u : Session σ}

/-- A closed translator holds nothing, an open one is faithful to `s`. -/
structure Upright (s : σ) (t : Translator σ) : Prop where
  shut : t.closed = true → t.held = none
  opened : t.closed = false → t.Faithful s

theorem upright_ofSource (s : σ) : Upright s (.ofSource s) := by
  constructor
  · intro shut
    cases shut
  · exact fun _ => Translator.faithful_ofSource s

theorem act_upright (h : Upright s u.translator) (a : Act) :
    Upright s (u.act a).translator := by
  obtain ⟨shut, opened⟩ := h
  cases a with
  | read answer =>
    have same := Translator.next_closed u.bookmarks u.translator
    constructor
    · intro closed
      have closed := same.symm.trans closed
      have still := Translator.next_of_closed closed u.bookmarks
      exact (congrArg (·.state.held) still).trans (shut closed)
    · exact fun open' => Translator.next_faithful (opened (same.symm.trans open')) u.bookmarks
  | close =>
    cases closed : u.translator.closed with
    | true =>
      have still := congrArg Turn.state (Translator.close_of_closed closed)
      have state : (u.act .close).translator = u.translator := still
      rw [state]
      exact ⟨shut, opened⟩
    | false =>
      have turn := congrArg Turn.state (Translator.close_of_open closed)
      have state : (u.act .close).translator = _ := turn
      rw [state]
      exact ⟨fun _ => rfl, nofun⟩
  | locate l =>
    exact ⟨shut, fun open' => ⟨(opened open').reached, (opened open').held⟩⟩
  | move m step => exact ⟨shut, opened⟩

theorem enact_upright (h : Upright s u.translator) (g : List Act) :
    Upright s (u.enact g).translator := by
  induction g generalizing u with
  | nil => exact h
  | cons a g ih => exact ih (act_upright h a)

theorem enact_finished {g : List Act} (h : u.translator.Finished) (unclosed : Act.close ∉ g) :
    (u.enact g).translator.Finished := by
  induction g generalizing u with
  | nil => exact h
  | cons a g ih =>
    obtain ⟨other, later⟩ := List.ne_and_not_mem_of_not_mem_cons unclosed
    refine ih ?_ later
    cases a with
    | read answer => exact (Translator.next_finished h u.bookmarks).2
    | close => exact absurd rfl other
    | locate l => exact ⟨h.opened, h.held, h.ahead⟩
    | move m step => exact h

/-- Let a source answer the end for good. Then a translator over it answers the end until it is
closed, once it has answered it, and holds the end back only behind the end of the source. It is
such a source again, and so are any number of them over it, over a text and over a device that
stays at its end. -/
theorem end_lasts (lasting : Lasting s) (b : Bookmarks) (qs : List Request) :
    let start : Session σ := ⟨b, .ofSource s⟩
    (∀ g₁ g₂ g₃ a, start.history qs = g₁ ++ .read (.ok .ended) :: g₂ ++ .read a :: g₃ →
      .close ∉ g₂ → a = .ok .ended) ∧
    (∀ g, (start.enact g).translator.held = some .ended →
      PastEnd s (start.enact g).translator.source ∧ Ended (start.enact g).translator.source) ∧
    (∀ n, Lasting (Stack.ofSource s n)) ∧
    (∀ text n, Lasting (Stack.ofSource (TextSource.ofText text) n)) ∧
    ∀ device, StaysAtEnd device → ∀ n, Lasting (Stack.ofSource (ByteSource.ofDevice device) n) := by
  intro start
  have upright (g : List Act) : Upright s (start.enact g).translator :=
    enact_upright (upright_ofSource s) g
  obtain ⟨-, tells⟩ := history_told start qs
  refine ⟨?_, ?_, Stack.lasting lasting, ?_, ?_⟩
  · intro g₁ g₂ g₃ a split unclosed
    rw [split, List.append_assoc, List.cons_append, tells_append] at tells
    obtain ⟨-, answer, later⟩ := tells
    obtain ⟨-, gives, -⟩ := tells_append.mp later
    have opened := Translator.opened_of_next answer
    have finished := Translator.finished_of_next lasting ((upright g₁).opened opened) answer
    have last := enact_finished (u := (start.enact g₁).act (.read (.ok .ended))) finished unclosed
    exact gives.symm.trans (Translator.next_finished last _).1
  · intro g held
    have open' : (start.enact g).translator.closed = false := by
      cases shut : (start.enact g).translator.closed with
      | true =>
        rw [(upright g).shut shut] at held
        cases held
      | false => rfl
    have past := ((upright g).opened open').held held
    exact ⟨past, lasting.ended past⟩
  · exact fun text n => Stack.lasting (TextSource.lasting _) n
  · exact fun device stays n => Stack.lasting (ByteSource.lasting_ofDevice stays) n

/-- A backslash and nothing behind it. -/
def loneBackslash : Script := { entries := [.ok (.char '\\')] }

theorem loneBackslash_end_lasts :
    let start : Session Script := ⟨{}, .ofSource loneBackslash⟩
    let first := start.enact [.read (.ok (.char '\\'))]
    Lasting loneBackslash ∧
    (∃ a, start.history [.read none, .read none, .read none] =
      [.read (.ok (.char '\\')), .read (.ok .ended), .read a] ∧ a = .ok .ended) ∧
    first.translator.held = some .ended ∧ PastEnd loneBackslash first.translator.source := by
  intro start first
  have entries : ∀ e ∈ loneBackslash.entries, e ≠ .ok .ended := by simp [loneBackslash]
  have lasting := Script.lasting entries
  obtain ⟨sticks, holds, -⟩ := end_lasts lasting {} [.read none, .read none, .read none]
  let t : Translator Script :=
    { source := { entries := [] }, held := some .ended, position := ⟨1, 2, 1⟩ }
  have turn : start.translator.next start.bookmarks = ⟨.ok (.char '\\'), t, #[]⟩ := by
    have fed : Scan.feed .fresh (.char '\\') = .more (.slash none) := rfl
    refine (Translator.next_of_free {} rfl rfl).trans ((Translator.scan_more rfl fed).trans ?_)
    exact Translator.scan_settled (i := .ended) (o := .plain (.char '\\') (some .ended)) rfl rfl
  have behind : t.next start.bookmarks = ⟨.ok .ended, { t with held := none }, #[]⟩ :=
    Translator.next_of_held start.bookmarks rfl rfl
  have held : first.translator.held = some .ended := congrArg (·.state.held) turn
  have told : start.history [.read none, .read none, .read none] =
      [.read (.ok (.char '\\')), .read (.ok .ended),
        .read ({ t with held := none }.next start.bookmarks).answer] := by
    simp only [history, acts, perform, Act.behind, Run.track_none, turn, behind]
    rfl
  refine ⟨lasting, ⟨_, told, ?_⟩, held, (holds _ held).1⟩
  exact sticks [.read (.ok (.char '\\'))] [] [] _ told List.not_mem_nil

end Session
end EscapedText
