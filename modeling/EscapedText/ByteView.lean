import EscapedText.Translator
import EscapedText.Utf8

/-!
The translated text as bytes of UTF-8. A reader asks with buffers of any size. What does not fit
of a character is kept for the next read, and a failure met behind bytes already copied is kept
for the read after, so the sizes of the buffers never show in what is delivered.
-/
namespace EscapedText

/-- `encoded` is the last character taken, of which `start` bytes are delivered. -/
structure ByteView (σ : Type) where
  translator : Translator σ
  encoded : List UInt8 := []
  start : Nat := 0
  deferred : Option Failure := none

namespace ByteView

variable {σ : Type}

def ofTranslator (translator : Translator σ) : ByteView σ := { translator }

/-- The bytes copied next into `room`. -/
def block (v : ByteView σ) (room : Nat) : List UInt8 := (v.encoded.drop v.start).take room

theorem length_block (v : ByteView σ) (room : Nat) :
    (v.block room).length = min room (v.encoded.length - v.start) := by
  simp [block]

variable [Source σ]

/-- Copies into `room` behind `out`. -/
def fill (b : Bookmarks) (v : ByteView σ) (room : Nat) (out : Array UInt8)
    (events : Array Event) : Turn (ByteView σ) (Except Fault (Array UInt8)) :=
  if room = 0 then ⟨.ok out, v, events⟩
  else if v.start < v.encoded.length then
    let block := v.block room
    fill b { v with start := v.start + block.length } (room - block.length)
      (out ++ block.toArray) events
  else
    let turn := v.translator.next b
    let events := events ++ turn.events
    match turn.answer with
    | .ok (.char c) =>
      fill b { v with translator := turn.state, encoded := Utf8.encode c, start := 0 } room out
        events
    | .ok .ended => ⟨.ok out, { v with translator := turn.state }, events⟩
    | .error f =>
      if out.isEmpty then ⟨.error f.toFault, { v with translator := turn.state }, events⟩
      else ⟨.ok out, { v with translator := turn.state, deferred := some f }, events⟩
termination_by (room, if v.start < v.encoded.length then 0 else 1)
decreasing_by
  · simp only [length_block]
    exact Prod.Lex.left _ _ (by omega)
  · have hc : 0 < (Utf8.encode c).length := by
      rw [String.length_utf8EncodeChar]; exact c.utf8Size_pos
    have hs : ¬ v.start < v.encoded.length := by omega
    rw [if_pos hc, if_neg hs]
    exact Prod.Lex.right _ Nat.zero_lt_one

/-- One read with a buffer of `room` bytes. -/
def read (b : Bookmarks) (v : ByteView σ) (room : Nat) :
    Turn (ByteView σ) (Except Fault (Array UInt8)) :=
  match v.deferred with
  | some f => ⟨.error f.toFault, { v with deferred := none }, #[]⟩
  | none => v.fill b room #[] #[]

end ByteView
end EscapedText
