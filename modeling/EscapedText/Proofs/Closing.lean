import EscapedText.Proofs.Interchange
import EscapedText.Proofs.Preservation
import EscapedText.Translator.Stack
import EscapedText.Source.Script

/-!
Closing. A source that writes down its calls shows how often it is closed: once, by the first close
of the translator over it, and never again. Behind that nothing is called any more, and every
request is refused. With a watch over every layer of a stack the same is seen of each.
-/
namespace EscapedText

namespace Translator

variable {σ : Type} [Source σ] {t : Translator σ}

theorem close_of_open (opened : t.closed = false) :
    t.close = ⟨Failure.ofSource (Source.close t.source).answer,
      { t with source := (Source.close t.source).state, held := none, closed := true },
      #[.closing t.position] ++ (Source.close t.source).events⟩ := by
  simp [close, opened]

theorem close_of_closed (shut : t.closed = true) : t.close = ⟨.ok (), t, #[]⟩ := by
  simp [close, shut]

theorem next_of_closed (shut : t.closed = true) (b : Bookmarks) :
    t.next b = ⟨.error (.refused .closed), t, #[]⟩ := by
  simp [next, shut]

/-- A run that does not read past the refusal is one read. -/
theorem run_of_closed (shut : t.closed = true) (b : Bookmarks) (past : Failure → Bool)
    (stops : past (.refused .closed) = false) (follow : Option Bookmark) (limit : Nat) :
    t.run b past follow (limit + 1) = ⟨b, t, #[.error (.refused .closed)], #[]⟩ := by
  simp [run, Run.start, Run.extend, next_of_closed shut, Run.readsOn, stops, Run.push, Run.track]

end Translator

/-- What a closed translator replies. -/
def Request.refused : Request → Reply
  | .read _ => .read (.error (.refused .closed))
  | .drain 0 _ => .drained []
  | .drain (_ + 1) _ => .drained [.error (.refused .closed)]
  | .readItem => .readItem (.error (.refused .closed))
  | .readInto [] => .readInto (.ok (some 0)) []
  | .readInto (c :: cs) => .readInto (.error (.refused .closed)) (c :: cs)
  | .readAll out => .readAll (.error (.refused .closed)) out
  | .iterate 0 => .iterated []
  | .iterate (n + 1) => .iterated (some (.error (.refused .closed)) :: List.replicate n none)
  | .close => .closed (.ok ())
  | .locate _ | .move _ _ => .done

namespace Session

variable {σ : Type}

/-- The translator is closed, over the same source and at the same place as before. -/
structure Rests (t u : Translator σ) : Prop where
  source : u.source = t.source
  position : u.position = t.position
  closed : u.closed = true

variable [Source σ]

theorem perform_of_closed {s : Session σ} (shut : s.translator.closed = true) (q : Request) :
    (s.perform q).answer = q.refused ∧
      Rests s.translator (s.perform q).state.translator := by
  have still : Rests s.translator s.translator := ⟨rfl, rfl, shut⟩
  have one := Translator.run_of_closed shut s.bookmarks Translator.never rfl none
  have past := Translator.run_of_closed shut s.bookmarks Failure.isMalformed rfl
  cases q with
  | read follow =>
    simp only [perform, Translator.next_of_closed shut]
    exact ⟨rfl, still⟩
  | drain limit follow =>
    cases limit with
    | zero => exact ⟨rfl, still⟩
    | succ limit =>
      simp only [perform, past]
      exact ⟨rfl, still⟩
  | readItem =>
    simp only [perform, after, Translator.nextItem, Translator.next_of_closed shut]
    exact ⟨rfl, still⟩
  | readInto buffer =>
    cases buffer with
    | nil => exact ⟨rfl, still⟩
    | cons c cs =>
      simp only [perform, after, Translator.readInto, List.length_cons, one]
      exact ⟨rfl, still⟩
  | readAll out =>
    simp only [perform, after, Translator.readAll, Translator.runAll, one]
    exact ⟨rfl, still⟩
  | iterate n =>
    cases n with
    | zero => exact ⟨rfl, still⟩
    | succ n =>
      simp only [perform, after, Translator.iterate, past]
      exact ⟨rfl, still⟩
  | close =>
    simp only [perform, after, Translator.close_of_closed shut]
    exact ⟨rfl, still⟩
  | locate l => exact ⟨rfl, rfl, rfl, shut⟩
  | move m move => exact ⟨rfl, still⟩

theorem performs_of_closed {s : Session σ} (shut : s.translator.closed = true)
    (qs : List Request) :
    (s.performs qs).1 = qs.map Request.refused ∧
      Rests s.translator (s.performs qs).2.translator := by
  induction qs generalizing s with
  | nil => exact ⟨rfl, rfl, rfl, shut⟩
  | cons q qs ih =>
    obtain ⟨reply, rests⟩ := perform_of_closed shut q
    obtain ⟨replies, later⟩ := ih rests.closed
    constructor
    · simp only [performs, List.map_cons, reply, replies]
    · exact ⟨later.source.trans rests.source, later.position.trans rests.position, later.closed⟩

theorem performs_append (s : Session σ) (ps qs : List Request) :
    s.performs (ps ++ qs) =
      ((s.performs ps).1 ++ ((s.performs ps).2.performs qs).1,
        ((s.performs ps).2.performs qs).2) := by
  induction ps generalizing s with
  | nil => rfl
  | cons p ps ih => simp only [List.cons_append, performs, ih]

end Session

/-! Watching. -/

inductive Call where
  | next
  | close
deriving DecidableEq

def Call.closings (calls : List Call) : Nat := calls.count .close

theorem Call.closings_next (calls : List Call) :
    closings (calls ++ [.next]) = closings calls := by
  simp [closings]

theorem Call.closings_close (calls : List Call) :
    closings (calls ++ [.close]) = closings calls + 1 := by
  simp [closings]

/-- A source with the calls that have been made of it. -/
structure Watched (σ : Type) where
  inner : σ
  calls : List Call := []

instance {σ : Type} [Source σ] : Source (Watched σ) where
  next b w :=
    let turn := Source.next b w.inner
    ⟨turn.answer, ⟨turn.state, w.calls ++ [.next]⟩, turn.events⟩
  close w :=
    let turn := Source.close w.inner
    ⟨turn.answer, ⟨turn.state, w.calls ++ [.close]⟩, turn.events⟩
  size w := Source.size w.inner
  size_next_le b w := Source.size_next_le b w.inner
  size_next_lt b w h := Source.size_next_lt b w.inner h

/-- `n` translators over a source, all of them watched. -/
def Tower (σ : Type) : Nat → Type
  | 0 => Watched σ
  | n + 1 => Watched (Translator (Tower σ n))

namespace Tower

variable {σ : Type} [h : Source σ]

instance source : (n : Nat) → Source (Tower σ n)
  | 0 => inferInstanceAs (Source (Watched σ))
  | n + 1 =>
    have : Source (Tower σ n) := source n
    inferInstanceAs (Source (Watched (Translator (Tower σ n))))

def bottom : (n : Nat) → Tower σ n → σ
  | 0, w => w.inner
  | n + 1, w => bottom n w.inner.source

/-- Nothing has been closed. -/
def Open : (n : Nat) → Tower σ n → Prop
  | 0, w => Call.closings w.calls = 0
  | n + 1, w => Call.closings w.calls = 0 ∧ w.inner.closed = false ∧ Open n w.inner.source

/-- All layers and the source have been closed, each by one call. -/
def Shut : (n : Nat) → Tower σ n → Prop
  | 0, w => Call.closings w.calls = 1
  | n + 1, w => Call.closings w.calls = 1 ∧ w.inner.closed = true ∧ Shut n w.inner.source

/-- A tower and a stack that is the same but for the watches. -/
def Seen : (n : Nat) → Tower σ n → Stack σ n → Prop
  | 0, w, s => w.inner = s
  | n + 1, w, t => Translator.Like (Seen n) w.inner t

theorem alike_seen (b : Bookmarks) (n : Nat) : Source.Alike b (Seen (σ := σ) n) := by
  induction n with
  | zero =>
    constructor
    · rintro w s rfl
      rfl
    · rintro w s rfl
      rfl
  | succ n ih =>
    constructor
    · intro w t like
      exact (Translator.nextItem_like ih like).1
    · intro w t like
      exact (Translator.nextItem_like ih like).2

theorem close_seen {n : Nat} {w : Tower σ n} {s : Stack σ n} (seen : Seen n w s) :
    (Source.close w).answer = (Source.close s).answer := by
  induction n with
  | zero =>
    cases seen
    rfl
  | succ n ih => exact congrArg Failure.passOn (Translator.close_like ih seen).1

/-- No reply tells whether a stack is watched. -/
theorem performs_seen {n : Nat} {s : Session (Tower σ n)} {u : Session (Stack σ n)}
    (like : Session.Like (Seen n) s u) (qs : List Request) :
    (s.performs qs).1 = (u.performs qs).1 := by
  induction qs generalizing s u with
  | nil => rfl
  | cons q qs ih =>
    obtain ⟨reply, like⟩ := Session.perform_like (alike_seen · n) close_seen like q
    exact congrArg₂ List.cons reply (ih like)

theorem open_next {n : Nat} (b : Bookmarks) (w : Tower σ n) (opened : Open n w) :
    Open n (Source.next b w).state := by
  induction n generalizing b with
  | zero =>
    exact (Call.closings_next w.calls).trans opened
  | succ n ih =>
    obtain ⟨count, flag, below⟩ := opened
    obtain ⟨below, kept⟩ := Translator.next_keeps (fun b w => ih b w) b below
    exact ⟨(Call.closings_next w.calls).trans count, kept.trans flag, below⟩

theorem shut_close {n : Nat} (w : Tower σ n) (opened : Open n w) :
    Shut n (Source.close w).state ∧
      (Source.close w).answer = (Source.close (bottom n w)).answer := by
  induction n with
  | zero =>
    exact ⟨(Call.closings_close w.calls).trans (congrArg (· + 1) opened), rfl⟩
  | succ n ih =>
    obtain ⟨count, flag, below⟩ := opened
    have calls := (Call.closings_close w.calls).trans (congrArg (· + 1) count)
    -- A failure of the source is wrapped once by this layer and unwrapped again when passed on.
    obtain ⟨shut, answer⟩ := ih w.inner.source below
    have closing := Translator.close_of_open flag
    constructor
    · refine ⟨calls, ?_⟩
      change w.inner.close.state.closed = true ∧ Shut n w.inner.close.state.source
      rw [closing]
      exact ⟨rfl, shut⟩
    · change Failure.passOn w.inner.close.answer = _
      rw [closing, Failure.passOn_ofSource, answer]
      rfl

end Tower

namespace Session

variable {σ : Type} [Source σ]

theorem performs_open {n : Nat} {s : Session (Tower σ n)} (opened : s.translator.closed = false)
    (unclosed : Tower.Open n s.translator.source) {qs : List Request}
    (hqs : ∀ q ∈ qs, q.closes = false) :
    (s.performs qs).2.translator.closed = false ∧
      Tower.Open n (s.performs qs).2.translator.source := by
  apply performs_keeps (P := fun t => t.closed = false ∧ Tower.Open n t.source) _ _ hqs
  · exact ⟨opened, unclosed⟩
  · rintro b t ⟨flag, below⟩
    obtain ⟨below, kept⟩ := Translator.next_keeps Tower.open_next b below
    exact ⟨kept.trans flag, below⟩
  · intro l t kept
    exact kept

theorem perform_close {n : Nat} {s : Session (Tower σ n)} (opened : s.translator.closed = false)
    (unclosed : Tower.Open n s.translator.source) :
    (s.perform .close).answer = .closed (Failure.ofSource
        (Source.close (Tower.bottom n s.translator.source)).answer) ∧
      (s.perform .close).state.translator.closed = true ∧
      Tower.Shut n (s.perform .close).state.translator.source ∧
      (s.perform .close).state.translator.position = s.translator.position := by
  obtain ⟨shut, answer⟩ := Tower.shut_close s.translator.source unclosed
  simp only [perform, after, Translator.close_of_open opened, answer]
  exact ⟨trivial, trivial, shut, trivial⟩

/-- Until the first close nothing is closed. That one closes every layer and the source once and
gives what closing the source gives. Behind it nothing is called and nothing moves, and every
request is refused, as bad data where items are read; but further closes do nothing. A stack that is
the same but for the watches replies just the same. -/
theorem closes_once (n : Nat) {s : Session (Tower σ n)} (opened : s.translator.closed = false)
    (unclosed : Tower.Open n s.translator.source) :
    (∀ qs : List Request, (∀ q ∈ qs, q.closes = false) →
      (s.performs qs).2.translator.closed = false ∧
        Tower.Open n (s.performs qs).2.translator.source) ∧
    (∀ u : Session (Stack σ n), Session.Like (Tower.Seen n) s u →
      ∀ qs, (u.performs qs).1 = (s.performs qs).1) ∧
    ∀ before after : List Request, (∀ q ∈ before, q.closes = false) →
      let first := s.performs before
      let closing := first.2.perform .close
      let last := s.performs (before ++ .close :: after)
      let bottom := Tower.bottom n first.2.translator.source
      last.1 = first.1 ++
        .closed (Failure.ofSource (Source.close bottom).answer) :: after.map Request.refused ∧
      last.2.translator.closed = true ∧
      Tower.Shut n last.2.translator.source ∧
      last.2.translator.source = closing.state.translator.source ∧
      last.2.translator.position = first.2.translator.position ∧
      (Fault.refused .closed).kind = .invalidData := by
  refine ⟨fun qs => performs_open opened unclosed,
    fun u like qs => (Tower.performs_seen like qs).symm, ?_⟩
  intro before after notYet first closing last bottom
  obtain ⟨flag, below⟩ := performs_open opened unclosed notYet
  obtain ⟨answer, closed, shut, place⟩ := perform_close flag below
  obtain ⟨replies, rests⟩ := performs_of_closed closed after
  have whole : last = (first.1 ++ closing.answer :: (closing.state.performs after).1,
      (closing.state.performs after).2) := performs_append s before (.close :: after)
  rw [whole]
  refine ⟨?_, rests.closed, ?_, rests.source, rests.position.trans place, rfl⟩
  · exact congrArg₂ (fun a as => first.1 ++ a :: as) answer replies
  · rw [rests.source]
    exact shut

/-- A translator that holds a character, over another one, over a source that cannot be closed. -/
def twofold : Session (Tower Script 1) where
  bookmarks := {}
  translator :=
    { source := ⟨.ofSource ⟨{ entries := [], closeFault := some (.device .other "stuck") }, []⟩, []⟩
      held := some (.char 'a') }

/-- The same with nobody watching. -/
def stuck : Session (Stack Script 1) where
  bookmarks := {}
  translator :=
    { source := Stack.ofSource { entries := [], closeFault := some (.device .other "stuck") } 1
      held := some (.char 'a') }

theorem twofold_closes_once :
    twofold.translator.closed = false ∧ Tower.Open 1 twofold.translator.source ∧
    (twofold.performs [.read none, .close, .readItem, .close]).1 =
      [.read (.ok (.char 'a')), .closed (.error (.source (.device .other "stuck"))),
        .readItem (.error (.refused .closed)), .closed (.ok ())] ∧
    Tower.Shut 1
      (twofold.performs [.read none, .close, .readItem, .close]).2.translator.source ∧
    (stuck.performs [.read none, .close, .readItem, .close]).1 =
      (twofold.performs [.read none, .close, .readItem, .close]).1 := by
  have opened : twofold.translator.closed = false := rfl
  have unclosed : Tower.Open 1 twofold.translator.source := ⟨rfl, rfl, rfl⟩
  have reads : ∀ q ∈ [Request.read none], q.closes = false := by simp [Request.closes]
  have like : Session.Like (Tower.Seen 1) twofold stuck :=
    ⟨rfl, rfl, rfl, rfl, rfl, fun _ => ⟨rfl, rfl, rfl, rfl, fun _ => rfl⟩⟩
  obtain ⟨-, seen, once⟩ := closes_once 1 opened unclosed
  obtain ⟨replies, -, shut, -⟩ := once [.read none] [.readItem, .close] reads
  exact ⟨opened, unclosed, replies, shut, seen stuck like _⟩

end Session
end EscapedText
