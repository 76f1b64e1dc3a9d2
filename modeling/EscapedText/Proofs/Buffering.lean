import EscapedText.Proofs.Channels
import EscapedText.Proofs.Copying

/-!
A buffer in front of an output that takes what it is given. What is handed on either waits or has
been written, in order and nothing lost, whatever is logged in between; a flush writes the rest.
-/
namespace EscapedText.World

variable {serve : World → Channel → List ReadStep} {enables : LogRecord → Bool}
  {out : Channel} {w : World}

/-! Single steps. -/

/-- What waits in front of an output, and the world. -/
structure Buffered where
  waiting : Array UInt8
  world : World

namespace Buffered

def flushed (out : Channel) (b : Buffered) : World :=
  if b.waiting.isEmpty then b.world else push out b.waiting.toList b.world

def put (out : Channel) (bytes : List UInt8) (b : Buffered) : Buffered :=
  if b.waiting.size + bytes.length ≤ Buffer.room then ⟨b.waiting ++ bytes, b.world⟩
  else ⟨bytes.toArray, b.flushed out⟩

end Buffered

def logged (enables : LogRecord → Bool) (r : LogRecord) (w : World) : World :=
  if enables r then tell (.record r) w else w

/-- What an effect comes to with a buffer in front of `out`. -/
def did (enables : LogRecord → Bool) (out : Channel) (b : Buffered) : Effect → Buffered
  | .logged e => ⟨b.waiting, logged enables e.record b.world⟩
  | .handedOn bytes => b.put out bytes

/-- What an effect comes to where characters go nowhere. -/
def told (enables : LogRecord → Bool) (w : World) : Effect → World
  | .logged e => logged enables e.record w
  | .handedOn _ => w

theorem write_accepting (accepts : out ≠ .full) (bytes : List UInt8) :
    write out bytes = do
      modify (push out bytes)
      return .ok () := if_neg accepts

theorem flush_run (accepts : out ≠ .full) (waiting : Array UInt8) (w : World) :
    ((Buffer.flush (write out)).run waiting).run w =
      ((.ok (), #[]), Buffered.flushed out ⟨waiting, w⟩) := by
  simp only [Buffer.flush, StateT.run_bind, StateT.run_get, pure_bind, Buffered.flushed]
  split
  · rename_i empty
    rw [Array.isEmpty_iff.mp empty]
    rfl
  · rw [write_accepting accepts]
    rfl

theorem put_run (accepts : out ≠ .full) (bytes : List UInt8) (b : Buffered) :
    ((Buffer.put (write out) bytes).run b.waiting).run b.world =
      ((.ok (), (b.put out bytes).waiting), (b.put out bytes).world) := by
  simp only [Buffer.put, StateT.run_bind, StateT.run_get, pure_bind, Buffered.put]
  split
  · rfl
  · rw [StateT.run_bind, StateT.run_bind, flush_run accepts]
    rfl

theorem log_run (r : LogRecord) (w : World) :
    ((hostWith serve).log enables r).run w = ((), logged enables r w) := by
  unfold Host.log logged
  split <;> rfl

/-! Whole copies. -/

def logging (serve : World → Channel → List ReadStep) (enables : LogRecord → Bool) (e : Event) :
    StateT (Array UInt8) (StateM World) Unit :=
  (hostWith serve).log enables e.record

def give (out : Channel) (bytes : List UInt8) : StateT (Array UInt8) (StateM World) Unit :=
  fun waiting w =>
    let b := Buffered.put out bytes ⟨waiting, w⟩
    (((), b.waiting), b.world)

theorem accepts_put (accepts : out ≠ .full) :
    Accepts (give out) (some (Buffer.put (write out))) := by
  intro bytes
  funext waiting w
  exact put_run accepts bytes ⟨waiting, w⟩

theorem perform_run (effect : Effect) (b : Buffered) :
    ((Effect.perform (logging serve enables) (give out) effect).run b.waiting).run b.world =
      (((), (did enables out b effect).waiting), (did enables out b effect).world) := by
  cases effect with
  | logged e =>
    simp only [Effect.perform, logging, Host.log, did, World.logged]
    split <;> rfl
  | handedOn bytes => rfl

theorem effects_run (effects : List Effect) (b : Buffered) :
    ((forM effects (Effect.perform (logging serve enables) (give out))).run b.waiting).run b.world =
      (((), (effects.foldl (did enables out) b).waiting),
        (effects.foldl (did enables out) b).world) := by
  induction effects generalizing b with
  | nil => rfl
  | cons effect effects ih =>
    rw [List.forM_cons, List.foldl_cons, ← ih, StateT.run_bind, StateT.run_bind, perform_run]
    rfl

theorem effects_run_nowhere (effects : List Effect) (w : World) :
    (forM effects (Effect.perform (fun e => (hostWith serve).log enables e.record)
        fun _ => pure ())).run w = ((), effects.foldl (told enables) w) := by
  induction effects generalizing w with
  | nil => rfl
  | cons effect effects ih =>
    rw [List.forM_cons, List.foldl_cons, ← ih, StateT.run_bind]
    cases effect with
    | logged e =>
      rw [Effect.perform, log_run]
      rfl
    | handedOn bytes => rfl

/-! What is kept. -/

/-- Between `b` and `b'` the output has been given bytes in front of which others wait, and nothing
else has changed. -/
structure Carried (out : Channel) (bytes : List UInt8) (b b' : Buffered) : Prop where
  fed : Fed out b.world b'.world
  kept : ∀ old, b.world.kept? out = some old → ∃ more, b'.world.kept? out = some (old ++ more) ∧
    more ++ b'.waiting.toList = b.waiting.toList ++ bytes

variable {b b₁ b₂ : Buffered} {bytes : List UInt8}

theorem Carried.trans {more : List UInt8} (h : Carried out bytes b b₁)
    (h' : Carried out more b₁ b₂) : Carried out (bytes ++ more) b b₂ := by
  refine ⟨h.fed.trans h'.fed, ?_⟩
  intro old before
  obtain ⟨first, between, order⟩ := h.kept old before
  obtain ⟨second, after, order'⟩ := h'.kept _ between
  refine ⟨first ++ second, ?_, ?_⟩
  · rw [after, List.append_assoc]
  · rw [List.append_assoc, order', ← List.append_assoc, order, List.append_assoc]

theorem carried_untouched {w' : World} (h : Untouched b.world w') :
    Carried out [] b ⟨b.waiting, w'⟩ := by
  refine ⟨h.fed out, ?_⟩
  intro old before
  exact ⟨[], by rw [kept_untouched h, before, List.append_nil], by rw [List.append_nil]; rfl⟩

theorem logged_untouched (enables : LogRecord → Bool) (r : LogRecord) (w : World) :
    Untouched w (logged enables r w) := by
  unfold logged
  split
  · exact untouched_tell _ w
  · exact .refl w

theorem flushed_fed (out : Channel) (b : Buffered) : Fed out b.world (b.flushed out) := by
  unfold Buffered.flushed
  split
  · exact .refl _ _
  · exact push_fed _ _ _

theorem flushed_kept {old : List UInt8} (before : b.world.kept? out = some old) :
    (b.flushed out).kept? out = some (old ++ b.waiting.toList) := by
  unfold Buffered.flushed
  split
  · rename_i empty
    rw [before, Array.isEmpty_iff.mp empty, Array.toList_empty, List.append_nil]
  · exact push_kept before _

theorem put_carried (out : Channel) (bytes : List UInt8) (b : Buffered) :
    Carried out bytes b (b.put out bytes) := by
  unfold Buffered.put
  split
  · refine ⟨.refl _ _, ?_⟩
    intro old before
    exact ⟨[], by rw [before, List.append_nil], by simp⟩
  · refine ⟨flushed_fed out b, ?_⟩
    intro old before
    exact ⟨b.waiting.toList, flushed_kept before, rfl⟩

theorem did_carried (enables : LogRecord → Bool) (out : Channel) (b : Buffered) (effect : Effect) :
    Carried out (effect.bytes?.getD []) b (did enables out b effect) := by
  cases effect with
  | logged e => exact carried_untouched (logged_untouched enables e.record b.world)
  | handedOn bytes => exact put_carried out bytes b

/-- Whatever is logged in between, what effects hand on is carried. -/
theorem effects_carried (enables : LogRecord → Bool) (out : Channel) (effects : List Effect)
    (b : Buffered) :
    Carried out (effects.filterMap Effect.bytes?).flatten b
      (effects.foldl (did enables out) b) := by
  induction effects generalizing b with
  | nil => exact carried_untouched (.refl _)
  | cons effect effects ih =>
    have both := (did_carried enables out b effect).trans (ih (did enables out b effect))
    cases effect with
    | logged e => exact both
    | handedOn bytes => exact both

end EscapedText.World
