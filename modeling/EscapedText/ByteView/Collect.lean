import EscapedText.ByteView
import EscapedText.Translator.Finite

/-!
Reading all bytes of a view. The collector tries a read again when it was interrupted and stops
at the first read that brings no byte or fails otherwise. Its first read is a probe; after that
the sizes of its buffers follow the room of a growing store, and are never below the probe's.
-/
namespace EscapedText

/-- The store of a collector: a probe at first, then so many bytes stored out of so many, and the
most that one read is offered. -/
inductive Growth where
  | probe
  | store (filled capacity limit : Nat)
deriving DecidableEq

namespace Growth

def probeSize : Nat := 32

def firstLimit : Nat := 8192

/-- A store with less room than a probe doubles, and makes room for a probe at least. -/
def grown (filled capacity : Nat) : Nat :=
  if capacity < filled + probeSize then max (2 * capacity) (filled + probeSize) else capacity

/-- The size of the next buffer. -/
def offer : Growth → Nat
  | probe => probeSize
  | store filled capacity limit => min (grown filled capacity - filled) limit

theorem probeSize_le_offer {filled capacity limit : Nat} (h : probeSize ≤ limit) :
    probeSize ≤ (store filled capacity limit).offer := by
  simp only [offer, grown]
  split <;> omega

/-- The store after a read of `n` bytes. A full read of the limit doubles the limit. -/
def after (n : Nat) : Growth → Growth
  | probe => store n n firstLimit
  | store filled capacity limit =>
    let room := min (grown filled capacity - filled) limit
    store (filled + n) (grown filled capacity)
      (if limit ≤ room ∧ n = room then 2 * limit else limit)

end Growth

namespace ByteView

variable {σ : Type} [Source σ]

/-- Bounds the reads that bring a byte or ask for another try. -/
def size (v : ByteView σ) : Nat :=
  9 * v.translator.size + 2 * (v.encoded.length - v.start) + if v.deferred.isSome then 1 else 0

theorem length_encode_le (c : Char) : (Utf8.encode c).length ≤ 4 := by
  rw [String.length_utf8EncodeChar]; exact c.utf8Size_le_four

/-- Each byte delivered takes two off the size, and a deferred failure adds one. -/
theorem size_fill_add {b : Bookmarks} {v : ByteView σ} {room : Nat} {out out' : Array UInt8}
    {events : Array Event} (h : v.deferred = none)
    (ho : (v.fill b room out events).answer = .ok out') :
    (v.fill b room out events).state.size + 2 * out'.size ≤ v.size + 2 * out.size + 1 := by
  fun_induction fill b v room out events with
  | case1 v out events => cases ho; exact Nat.le_succ _
  | case2 v room out events hr hs block ih =>
    refine Nat.le_trans (ih h ho) ?_
    have hb : block.length ≤ v.encoded.length - v.start := by
      rw [length_block]; exact Nat.min_le_right _ _
    simp only [size, h, Option.isSome_none, Bool.false_eq_true, if_false, Array.size_append,
      List.size_toArray]
    omega
  | case3 v room out events hr hs turn all c hc ih =>
    refine Nat.le_trans (ih h ho) ?_
    have hn : turn.state.size < v.translator.size := Translator.size_next_lt hc
    have hl := length_encode_le c
    simp only [size, h, Option.isSome_none, Bool.false_eq_true, if_false]
    omega
  | case4 v room out events hr hs turn all he =>
    cases ho
    have hn : turn.state.size ≤ v.translator.size := v.translator.size_next_le b
    simp only [size, h, Option.isSome_none, Bool.false_eq_true, if_false]
    omega
  | case5 => contradiction
  | case6 v room out events hr hs turn all f hf hne =>
    cases ho
    have hn : turn.state.size ≤ v.translator.size := v.translator.size_next_le b
    simp only [size, h, Option.isSome_none, Option.isSome_some, Bool.false_eq_true, if_false,
      if_true]
    omega

theorem size_fill_lt {b : Bookmarks} {v : ByteView σ} {room : Nat} {out : Array UInt8}
    {events : Array Event} {f : Fault} (h : v.deferred = none)
    (hf : (v.fill b room out events).answer = .error f) (hi : f.kind = .interrupted) :
    (v.fill b room out events).state.size < v.size := by
  fun_induction fill b v room out events with
  | case1 => contradiction
  | case2 v room out events hr hs block ih =>
    refine Nat.lt_of_lt_of_le (ih h hf) ?_
    simp only [size, h, Option.isSome_none, Bool.false_eq_true, if_false]
    omega
  | case3 v room out events hr hs turn all c hc ih =>
    refine Nat.lt_of_lt_of_le (ih h hf) ?_
    have hn : turn.state.size < v.translator.size := Translator.size_next_lt hc
    have hl := length_encode_le c
    simp only [size, h, Option.isSome_none, Bool.false_eq_true, if_false]
    omega
  | case4 => contradiction
  | case5 v room out events hr hs turn all e he hne =>
    cases hf
    have hn : turn.state.size < v.translator.size :=
      Translator.size_next_lt_of_interrupted he hi
    simp only [size, h, Option.isSome_none, Bool.false_eq_true, if_false]
    omega
  | case6 => contradiction

/-- The reads that a collector goes on after. -/
def Productive : Except Fault (Array UInt8) → Prop
  | .ok out => out.size ≠ 0
  | .error f => f.kind = .interrupted

theorem size_read_lt {b : Bookmarks} {v : ByteView σ} {room : Nat}
    (h : Productive (v.read b room).answer) : (v.read b room).state.size < v.size := by
  unfold read at h ⊢
  split
  · rename_i f hd
    simp [size, hd]
  · rename_i hd
    simp only [hd] at h
    cases ha : (v.fill b room #[] #[]).answer with
    | ok out =>
      have := size_fill_add hd ha
      rw [ha] at h
      simp only [Productive] at h
      simp only [List.size_toArray, List.length_nil] at this
      omega
    | error f => exact size_fill_lt hd ha (by rwa [ha] at h)

/-- Reads everything behind `out`. The answer says whether the end or a failure stopped it. -/
def collect (b : Bookmarks) (v : ByteView σ) (g : Growth) (out : Array UInt8)
    (events : Array Event) : Turn (ByteView σ) (Except Fault Unit × Array UInt8) :=
  let turn := v.read b g.offer
  let events := events ++ turn.events
  match h : turn.answer with
  | .ok bytes =>
    if hb : bytes.size = 0 then ⟨(.ok (), out), turn.state, events⟩
    else
      have : turn.state.size < v.size := size_read_lt (by rw [h]; exact hb)
      collect b turn.state (g.after bytes.size) (out ++ bytes) events
  | .error f =>
    if hf : f.kind = .interrupted then
      have : turn.state.size < v.size := size_read_lt (by rw [h]; exact hf)
      collect b turn.state g out events
    else ⟨(.error f, out), turn.state, events⟩
termination_by v.size

def readToEnd (b : Bookmarks) (v : ByteView σ) :
    Turn (ByteView σ) (Except Fault Unit × Array UInt8) :=
  v.collect b .probe #[] #[]

end ByteView
end EscapedText
