import EscapedText.Proofs.ByteReading

/-!
What is ahead of a source of bytes. What it has read and not used and what its device will still
answer make one row of cues: bytes, pauses where the device has nothing, and faults. A read depends
on the cues alone and takes a portion from their front, so nothing tells in which pieces the bytes
have come.
-/
namespace EscapedText

/-- What a look at the device comes to. -/
inductive Cue where
  | byte (b : UInt8)
  | dry
  | failed (f : Fault)
deriving DecidableEq

/-- A piece without bytes looks like a pause. -/
def ReadStep.cues : ReadStep → List Cue
  | .bytes [] | .dry => [.dry]
  | .bytes (b :: bs) => .byte b :: bs.map .byte
  | .failed f => [.failed f]

theorem ReadStep.cues_bytes {bs : List UInt8} (solid : bs ≠ []) :
    (ReadStep.bytes bs).cues = bs.map .byte := by
  cases bs with
  | nil => contradiction
  | cons b bs => rfl

/-- What one read takes. -/
structure Portion where
  answer : Except Fault Item
  used : List UInt8
  rest : List Cue

namespace Cue

/-- The answer to a sequence that began at `lead`, when all of it is taken. -/
def complete (lead : Nat) (seq : List UInt8) : Except Fault Item :=
  match Utf8.decode? seq with
  | some c => .ok (.char c)
  | none => .error (ByteSource.invalid lead)

/-- The portion of a sequence that began at `lead`, of which `seq` is taken already. -/
def continued (lead : Nat) : Nat → List UInt8 → List Cue → Portion
  | 0, seq, cs => ⟨complete lead seq, seq, cs⟩
  | more + 1, seq, .byte b :: cs =>
    if Utf8.isContinuation b then continued lead more (seq ++ [b]) cs
    else ⟨.error (ByteSource.invalid lead), seq, .byte b :: cs⟩
  | _ + 1, seq, .failed f :: cs => ⟨.error f, seq, cs⟩
  | _ + 1, seq, .dry :: cs => ⟨.error (ByteSource.invalid lead), seq, cs⟩
  | _ + 1, seq, [] => ⟨.error (ByteSource.invalid lead), seq, []⟩

/-- The portion that a read at `offset` takes. -/
def portion (offset : Nat) : List Cue → Portion
  | [] => ⟨.ok .ended, [], []⟩
  | .dry :: cs => ⟨.ok .ended, [], cs⟩
  | .failed f :: cs => ⟨.error f, [], cs⟩
  | .byte b :: cs =>
    match Utf8.width b with
    | 0 => ⟨.error (ByteSource.invalid offset), [b], cs⟩
    | more + 1 => continued offset more [b] cs

end Cue

namespace ByteSource

variable {s t u : ByteSource}

def ahead (s : ByteSource) : List Cue := s.unread.map .byte ++ s.device.flatMap ReadStep.cues

theorem ahead_of_piece (p : List UInt8) (rest : List ReadStep) :
    ahead { s with
        device := if p.length ≤ ReadStep.limit then rest
          else .bytes (p.drop ReadStep.limit) :: rest
        unread := p.take ReadStep.limit } =
      p.map .byte ++ rest.flatMap ReadStep.cues := by
  simp only [ahead]
  split
  · rename_i fits
    rw [List.take_of_length_le fits]
  · rename_i exceeds
    have more : p.drop ReadStep.limit ≠ [] := List.drop_eq_nil_iff.not.mpr exceeds
    rw [List.flatMap_cons, ReadStep.cues_bytes more, ← List.append_assoc, ← List.map_append,
      List.take_append_drop]

/-- Filling looks at the first cue, and uses it up unless it is a byte. -/
theorem fill_ahead (s : ByteSource) :
    ∃ t, t.offset = s.offset ∧ t.closed = s.closed ∧
      match s.ahead with
      | [] => s.fill = (.ok (), t) ∧ t.unread.head? = none ∧ t.ahead = []
      | .byte b :: cs =>
        s.fill = (.ok (), t) ∧ t.unread.head? = some b ∧ t.ahead = .byte b :: cs
      | .dry :: cs => s.fill = (.ok (), t) ∧ t.unread.head? = none ∧ t.ahead = cs
      | .failed f :: cs => s.fill = (.error f, t) ∧ t.ahead = cs := by
  obtain ⟨device, unread, offset, closed⟩ := s
  refine ⟨(fill ⟨device, unread, offset, closed⟩).2, ?_⟩
  cases unread with
  | cons b bs => cases device <;> exact ⟨rfl, rfl, rfl, rfl, rfl⟩
  | nil =>
    cases device with
    | nil => exact ⟨rfl, rfl, rfl, rfl, rfl⟩
    | cons step rest =>
      cases step with
      | dry => exact ⟨rfl, rfl, rfl, rfl, rfl⟩
      | failed f => exact ⟨rfl, rfl, rfl, rfl⟩
      | bytes bs =>
        cases bs with
        | nil => exact ⟨rfl, rfl, rfl, rfl, rfl⟩
        | cons b bs => exact ⟨rfl, rfl, rfl, rfl, ahead_of_piece (b :: bs) rest⟩

theorem use_ahead {b : UInt8} {cs : List Cue} (head : s.unread.head? = some b)
    (ahead : s.ahead = .byte b :: cs) : s.use.ahead = cs := by
  obtain ⟨bs, unread⟩ := List.head?_eq_some_iff.mp head
  simp only [ByteSource.ahead, unread, List.map_cons, List.cons_append, List.cons.injEq,
    true_and] at ahead
  simp only [ByteSource.ahead, use, unread, List.tail_cons]
  exact ahead

/-- A read of `s` takes the portion `p`, of which `taken` bytes had been used up before. -/
structure Takes (s : ByteSource) (p : Portion) (taken : Nat)
    (r : Except Fault Item × ByteSource) : Prop where
  answer : r.1 = p.answer
  ahead : r.2.ahead = p.rest
  offset : r.2.offset + taken = s.offset + p.used.length
  closed : r.2.closed = s.closed

theorem continued_takes (lead more : Nat) (seq : List UInt8) (s : ByteSource) :
    Takes s (Cue.continued lead more seq s.ahead) seq.length (continued lead more seq s) := by
  induction more generalizing seq s with
  | zero =>
    simp only [continued, Cue.continued, Cue.complete]
    cases Utf8.decode? seq <;> exact ⟨rfl, rfl, rfl, rfl⟩
  | succ more ih =>
    obtain ⟨t, offset, closed, fill⟩ := s.fill_ahead
    have still : t.offset + seq.length = s.offset + seq.length := by rw [offset]
    cases ahead : s.ahead with
    | nil =>
      rw [ahead] at fill
      obtain ⟨fill, head, rest⟩ := fill
      simp only [continued, fill, head, Cue.continued]
      exact ⟨rfl, rest, still, closed⟩
    | cons cue cs =>
      rw [ahead] at fill
      cases cue with
      | byte b =>
        obtain ⟨fill, head, rest⟩ := fill
        simp only [continued, fill, head, Cue.continued]
        split
        · have later := ih (seq ++ [b]) t.use
          rw [use_ahead head rest] at later
          obtain ⟨answer, behind, moved, same⟩ := later
          have one : t.use.offset = s.offset + 1 := congrArg (· + 1) offset
          rw [one, List.length_append, List.length_singleton] at moved
          exact ⟨answer, behind, by omega, same.trans closed⟩
        · exact ⟨rfl, rest, still, closed⟩
      | dry =>
        obtain ⟨fill, head, rest⟩ := fill
        simp only [continued, fill, head, Cue.continued]
        exact ⟨rfl, rest, still, closed⟩
      | failed f =>
        obtain ⟨fill, rest⟩ := fill
        simp only [continued, fill, Cue.continued]
        exact ⟨rfl, rest, still, closed⟩

theorem read_of_closed (shut : s.closed = true) : s.read = (.error isClosed, s) := by
  simp [read, shut]

theorem read_takes (opened : s.closed = false) :
    Takes s (Cue.portion s.offset s.ahead) 0 s.read := by
  obtain ⟨t, offset, closed, fill⟩ := s.fill_ahead
  rw [read, if_neg (by simp [opened])]
  cases ahead : s.ahead with
  | nil =>
    rw [ahead] at fill
    obtain ⟨fill, head, rest⟩ := fill
    simp only [fill, head, Cue.portion]
    exact ⟨rfl, rest, offset, closed⟩
  | cons cue cs =>
    rw [ahead] at fill
    cases cue with
    | byte b =>
      obtain ⟨fill, head, rest⟩ := fill
      have behind := use_ahead head rest
      have one : t.use.offset = s.offset + 1 := congrArg (· + 1) offset
      simp only [fill, head, Cue.portion]
      cases Utf8.width b with
      | zero => exact ⟨rfl, behind, one, closed⟩
      | succ more =>
        have later := continued_takes s.offset more [b] t.use
        rw [behind] at later
        obtain ⟨answer, behind, moved, same⟩ := later
        rw [one, List.length_singleton] at moved
        refine ⟨answer, behind, ?_, same.trans closed⟩
        exact Nat.add_right_cancel (moved.trans (Nat.add_right_comm _ _ _))
    | dry =>
      obtain ⟨fill, head, rest⟩ := fill
      simp only [fill, head, Cue.portion]
      exact ⟨rfl, rest, offset, closed⟩
    | failed f =>
      obtain ⟨fill, rest⟩ := fill
      simp only [fill, Cue.portion]
      exact ⟨rfl, rest, offset, closed⟩

/-- The cues ahead, the offset and whether it is closed are all that ever shows of a source. -/
structure Same (s u : ByteSource) : Prop where
  ahead : s.ahead = u.ahead
  offset : s.offset = u.offset
  closed : s.closed = u.closed

theorem Same.read (h : Same s u) : s.read.1 = u.read.1 ∧ Same s.read.2 u.read.2 := by
  cases shut : s.closed with
  | true =>
    rw [read_of_closed shut, read_of_closed (h.closed ▸ shut)]
    exact ⟨rfl, h⟩
  | false =>
    have left := read_takes shut
    have right := read_takes (s := u) (h.closed ▸ shut)
    rw [h.ahead, h.offset] at left
    refine ⟨left.answer.trans right.answer.symm, left.ahead.trans right.ahead.symm, ?_, ?_⟩
    · exact left.offset.trans (h.offset ▸ right.offset.symm)
    · exact left.closed.trans (h.closed.trans right.closed.symm)

theorem Same.readings (h : Same s u) (n : Nat) : s.readings n = u.readings n := by
  induction n generalizing s u with
  | zero => rfl
  | succ n ih =>
    obtain ⟨answer, later⟩ := h.read
    rw [ByteSource.readings, ByteSource.readings, answer, later.offset, ih later]

theorem ahead_ofDevice {v : List UInt8} (cut : Cut v) :
    (ofDevice cut.device).ahead = v.map .byte := by
  obtain ⟨pieces, solid, rfl⟩ := cut
  simp only [ahead, ofDevice, Cut.device, List.map_nil, List.nil_append]
  induction pieces with
  | nil => rfl
  | cons p pieces ih =>
    obtain ⟨some, others⟩ := List.forall_mem_cons.mp solid
    rw [List.map_cons, List.flatMap_cons, ReadStep.cues_bytes some, ih others, List.flatten_cons,
      List.map_append]

/-- Two ways of cutting the same bytes into pieces never show: each read answers the same, a fault
with its place included, and leaves the source at the same offset. -/
theorem readings_of_cuts {v : List UInt8} (left right : Cut v) (n : Nat) :
    (ofDevice left.device).readings n = (ofDevice right.device).readings n := by
  have same : Same (ofDevice left.device) (ofDevice right.device) := by
    refine ⟨?_, rfl, rfl⟩
    rw [ahead_ofDevice, ahead_ofDevice]
  exact same.readings n

end ByteSource
end EscapedText
