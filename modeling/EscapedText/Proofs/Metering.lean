import EscapedText.Proofs.History
import EscapedText.Proofs.Spending

/-!
Two offsets. A translator counts the characters it is given, its source the bytes it uses up, and
neither looks at the other. A watch over the source shows each read of it; the watch changes
nothing, and the two offsets differ by what failed reads have used up.
-/
namespace EscapedText

def Turn.map {σ τ α : Type} (φ : σ → τ) (turn : Turn σ α) : Turn τ α :=
  ⟨turn.answer, φ turn.state, turn.events⟩

/-- Reading and closing see only the image of a state. -/
structure Source.Image {σ τ : Type} [Source σ] [Source τ] (φ : σ → τ) : Prop where
  next (b : Bookmarks) (s : σ) : Source.next b (φ s) = (Source.next b s).map φ
  close (s : σ) : Source.close (φ s) = (Source.close s).map φ

theorem Watched.image_inner {σ : Type} [Source σ] : Source.Image (Watched.inner (σ := σ)) :=
  ⟨fun _ _ => rfl, fun _ => rfl⟩

namespace Translator

variable {σ τ : Type} {φ : σ → τ} {b : Bookmarks}

/-- The translator over the image of its source. -/
def map (φ : σ → τ) (t : Translator σ) : Translator τ where
  source := φ t.source
  held := t.held
  locator := t.locator
  position := t.position
  closed := t.closed

theorem settle_map (t : Translator σ) (events : Array Event) (o : Outcome) :
    settle b (t.map φ) events o = (settle b t events o).map (map φ) := by
  cases o <;> rfl

variable [Source σ] [Source τ]

theorem scan_map (image : Source.Image φ) (s : Scan) (t : Translator σ) (events : Array Event) :
    (t.map φ).scan b s events = (t.scan b s events).map (map φ) := by
  fun_induction scan b t s events with
  | case1 t s events turn all f fault =>
    have step : Source.next b (t.map φ).source = turn.map φ := image.next b t.source
    rw [scan_fault ((congrArg Turn.answer step).trans fault), step]
    rfl
  | case2 t s events turn all i answer t' s' more smaller ih =>
    have step : Source.next b (t.map φ).source = turn.map φ := image.next b t.source
    rw [scan_more ((congrArg Turn.answer step).trans answer) more, step]
    exact ih
  | case3 t s events turn all i answer t' o settled =>
    have step : Source.next b (t.map φ).source = turn.map φ := image.next b t.source
    rw [scan_settled ((congrArg Turn.answer step).trans answer) settled, step]
    exact settle_map t' all o

theorem next_map (image : Source.Image φ) (b : Bookmarks) (t : Translator σ) :
    (t.map φ).next b = (t.next b).map (map φ) := by
  unfold next
  have closed : (t.map φ).closed = t.closed := rfl
  have held : (t.map φ).held = t.held := rfl
  rw [closed, held]
  split
  · rfl
  · cases t.held with
    | some i => rfl
    | none => exact scan_map image .fresh t #[]

theorem close_map (image : Source.Image φ) (t : Translator σ) :
    (t.map φ).close = t.close.map (map φ) := by
  cases shut : t.closed with
  | true => rw [close_of_closed shut, close_of_closed (t := t.map φ) shut]; rfl
  | false =>
    rw [close_of_open shut, close_of_open (t := t.map φ) shut, map, image.close]
    rfl

/-! What each answer of the source keeps of it and of the raw position. -/

/-- The raw position after an answer of the source. -/
def passing (p : Position) : Except Fault Item → Position
  | .ok i => advance p i
  | .error _ => p

variable {P : σ → Position → Prop}

omit [Source σ] in
theorem settle_carries {t : Translator σ} (h : P t.source t.position) (events : Array Event)
    (o : Outcome) :
    P (settle b t events o).state.source (settle b t events o).state.position := by
  cases o <;> exact h

theorem scan_carries
    (carries : ∀ s p, P s p → P (Source.next b s).state (passing p (Source.next b s).answer))
    {t : Translator σ} (h : P t.source t.position) (s : Scan) (events : Array Event) :
    P (t.scan b s events).state.source (t.scan b s events).state.position := by
  fun_induction scan b t s events with
  | case1 t s events turn all f fault =>
    have step := carries t.source t.position h
    rw [fault] at step
    exact step
  | case2 t s events turn all i answer t' s' more smaller ih =>
    have step := carries t.source t.position h
    rw [answer] at step
    exact ih step
  | case3 t s events turn all i answer t' o settled =>
    have step := carries t.source t.position h
    rw [answer] at step
    exact settle_carries (t := t') step all o

theorem next_carries
    (carries : ∀ b s p, P s p → P (Source.next b s).state (passing p (Source.next b s).answer))
    {t : Translator σ} (h : P t.source t.position) (b : Bookmarks) :
    P (t.next b).state.source (t.next b).state.position := by
  unfold next
  split
  · exact h
  · split
    · exact h
    · exact scan_carries (carries b) h .fresh #[]

end Translator

namespace Session

variable {σ τ : Type} {φ : σ → τ}

def map (φ : σ → τ) (s : Session σ) : Session τ := ⟨s.bookmarks, s.translator.map φ⟩

variable [Source σ] [Source τ]

theorem enact_map (image : Source.Image φ) (s : Session σ) (g : List Act) :
    (s.map φ).enact g = (s.enact g).map φ := by
  induction g generalizing s with
  | nil => rfl
  | cons a g ih =>
    have first : (s.map φ).act a = (s.act a).map φ := by
      cases a with
      | read answer =>
        exact congrArg (Session.mk s.bookmarks ·.state) (Translator.next_map image _ s.translator)
      | close =>
        exact congrArg (Session.mk s.bookmarks ·.state) (Translator.close_map image s.translator)
      | locate l | move m step => rfl
    exact (congrArg (enact · g) first).trans (ih (s.act a))

end Session

open ByteSource (ofDevice)

/-- The source over `device` that `w` watches has come through just the calls that are written down,
and the raw offset `p` counts what it has used up but for what failed reads have lost. -/
structure Metered (device : List ReadStep) (w : Watched ByteSource) (p : Position) : Prop where
  inner : w.inner = (ofDevice device).called w.calls
  offset : p.offset + (ofDevice device).lost w.calls = w.inner.offset

namespace Metered

variable {device : List ReadStep} {w : Watched ByteSource} {p : Position}

theorem next (b : Bookmarks) (h : Metered device w p) :
    Metered device (Source.next b w).state (Translator.passing p (Source.next b w).answer) := by
  have answer : (Source.next b w).answer = w.inner.read.1 := rfl
  have state : (Source.next b w).state = ⟨w.inner.read.2, w.calls ++ [.next]⟩ := rfl
  rw [answer, state]
  constructor
  · rw [ByteSource.called_append, ← h.inner]
    rfl
  · have lost : (ofDevice device).lost (w.calls ++ [.next]) = (ofDevice device).lost w.calls +
        if w.inner.read.1.isOk then 0 else w.inner.used.length := by
      rw [ByteSource.lost_append, ← h.inner]
      rfl
    rw [lost, w.inner.read_offset, ← h.offset]
    cases given : w.inner.read.1 with
    | error f => exact (Nat.add_assoc ..).symm
    | ok i =>
      cases i with
      | char c =>
        rw [ByteSource.used_char given, String.length_utf8EncodeChar]
        simp only [Translator.passing, Translator.advance, Position.advance_offset, Except.isOk,
          Except.toBool, if_true]
        omega
      | ended =>
        rw [ByteSource.used_idle (.inr (.inl given))]
        rfl

theorem close (h : Metered device w p) : Metered device (Source.close w).state p := by
  have state : (Source.close w).state = ⟨w.inner.close, w.calls ++ [.close]⟩ := rfl
  rw [state]
  constructor
  · rw [ByteSource.called_append, ← h.inner]
    rfl
  · rw [ByteSource.lost_append]
    exact h.offset

end Metered

namespace Session

/-- A fresh translator over a fresh source of bytes. -/
def ofBytes (b : Bookmarks) (device : List ReadStep) : Session ByteSource :=
  ⟨b, .ofSource (ofDevice device)⟩

/-- The same with a watch over the source. -/
def ofWatched (b : Bookmarks) (device : List ReadStep) : Session (Watched ByteSource) :=
  ⟨b, .ofSource ⟨ofDevice device, []⟩⟩

theorem act_metered {device : List ReadStep} {s : Session (Watched ByteSource)}
    (h : Metered device s.translator.source s.translator.position) (a : Act) :
    Metered device (s.act a).translator.source (s.act a).translator.position := by
  cases a with
  | read answer => exact Translator.next_carries (fun b _ _ => Metered.next b) h s.bookmarks
  | close =>
    unfold act
    cases shut : s.translator.closed with
    | true =>
      rw [Translator.close_of_closed shut]
      exact h
    | false =>
      rw [Translator.close_of_open shut]
      exact h.close
  | locate l | move m step => exact h

theorem enact_metered {device : List ReadStep} {s : Session (Watched ByteSource)}
    (h : Metered device s.translator.source s.translator.position) (g : List Act) :
    Metered device (s.enact g).translator.source (s.enact g).translator.position := by
  induction g generalizing s with
  | nil => exact h
  | cons a g ih => exact ih (act_metered h a)

/-- However the source over a device is called, its books are right. And behind whatever a session
over it has done, the raw offset is the source's, less the bytes that failed reads have used up; the
watched session shows the calls that the source has had. -/
theorem books_and_offsets (device : List ReadStep) (b : Bookmarks) :
    (∀ calls, ByteSource.Books device calls ((ofDevice device).called calls)) ∧
    (∀ qs, (ofBytes b device).enact ((ofBytes b device).history qs) =
      ((ofBytes b device).performs qs).2) ∧
    ∀ g : List Act,
      let t := ((ofBytes b device).enact g).translator
      let w := ((ofWatched b device).enact g).translator
      t = w.map Watched.inner ∧ t.source = (ofDevice device).called w.source.calls ∧
        t.position.offset + (ofDevice device).lost w.source.calls = t.source.offset := by
  refine ⟨ByteSource.books_called device, fun qs => (history_told _ qs).1, ?_⟩
  intro g t w
  have image : (ofBytes b device).enact g = ((ofWatched b device).enact g).map Watched.inner :=
    enact_map Watched.image_inner (ofWatched b device) g
  have same : t = w.map Watched.inner := congrArg Session.translator image
  obtain ⟨inner, offset⟩ := enact_metered (s := ofWatched b device) ⟨rfl, rfl⟩ g
  rw [same]
  exact ⟨rfl, inner, offset⟩

end Session
end EscapedText
