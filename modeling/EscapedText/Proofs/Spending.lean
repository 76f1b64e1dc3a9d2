import EscapedText.Proofs.Closing
import EscapedText.Proofs.Cues

/-!
What a source of bytes uses up, whatever its device does and however it is called. Bytes go in their
order and only once, and the offset counts them. A character is answered for just the bytes of its
sequence, a fault keeps what was taken before it, and a call that takes nothing leaves the source as
if it had not been made.
-/
namespace EscapedText

/-- The bytes that a step brings. -/
def ReadStep.brought : ReadStep → List UInt8
  | .bytes bs => bs
  | .dry | .failed _ => []

namespace Cue

def byte? : Cue → Option UInt8
  | .byte b => some b
  | .dry | .failed _ => none

def bytes (cs : List Cue) : List UInt8 := cs.filterMap byte?

theorem bytes_map (bs : List UInt8) : bytes (bs.map .byte) = bs := by
  induction bs with
  | nil => rfl
  | cons b bs ih => exact congrArg (b :: ·) ih

theorem bytes_cues (step : ReadStep) : bytes step.cues = step.brought := by
  cases step with
  | bytes bs =>
    cases bs with
    | nil => rfl
    | cons b bs => exact congrArg (b :: ·) (bytes_map bs)
  | dry | failed f => rfl

theorem bytes_device (device : List ReadStep) :
    bytes (device.flatMap ReadStep.cues) = device.flatMap ReadStep.brought := by
  induction device with
  | nil => rfl
  | cons step device ih =>
    rw [List.flatMap_cons, List.flatMap_cons, ← ih, ← bytes_cues]
    exact List.filterMap_append

variable {offset lead more : Nat} {seq : List UInt8} {cs : List Cue} {c : Char}

/-! One portion. -/

theorem continued_bytes (lead more : Nat) (seq : List UInt8) (cs : List Cue) :
    (continued lead more seq cs).used ++ bytes (continued lead more seq cs).rest =
      seq ++ bytes cs := by
  fun_induction continued lead more seq cs with
  | case2 more seq b cs continues ih =>
    rw [ih, List.append_assoc]
    rfl
  | case1 | case3 | case4 | case5 | case6 => rfl

theorem portion_bytes (offset : Nat) (cs : List Cue) :
    (portion offset cs).used ++ bytes (portion offset cs).rest = bytes cs := by
  unfold portion
  split
  · rfl
  · rfl
  · rfl
  · split
    · rfl
    · exact continued_bytes ..

theorem complete_char (h : complete lead seq = .ok (.char c)) : seq = Utf8.encode c := by
  unfold complete at h
  split at h
  · rename_i decoded
    cases h
    exact (Utf8.encode_of_decode? decoded).symm
  · cases h

theorem complete_not_ended (lead : Nat) (seq : List UInt8) : complete lead seq ≠ .ok .ended := by
  unfold complete
  split <;> nofun

theorem continued_char (h : (continued lead more seq cs).answer = .ok (.char c)) :
    (continued lead more seq cs).used = Utf8.encode c := by
  fun_induction continued lead more seq cs with
  | case1 seq cs => exact complete_char h
  | case2 more seq b cs continues ih => exact ih h
  | case3 | case4 | case5 | case6 => cases h

theorem continued_not_ended : (continued lead more seq cs).answer ≠ .ok .ended := by
  fun_induction continued lead more seq cs with
  | case1 seq cs => exact complete_not_ended lead seq
  | case2 more seq b cs continues ih => exact ih
  | case3 | case4 | case5 | case6 => nofun

theorem portion_char (h : (portion offset cs).answer = .ok (.char c)) :
    (portion offset cs).used = Utf8.encode c := by
  cases cs with
  | nil => cases h
  | cons cue cs =>
    cases cue with
    | dry | failed f => cases h
    | byte b =>
      simp only [portion] at h ⊢
      cases width : Utf8.width b with
      | zero =>
        rw [width] at h
        cases h
      | succ more =>
        rw [width] at h
        exact continued_char h

/-- The end is answered where nothing is ahead, or at a pause. -/
theorem portion_ended (h : (portion offset cs).answer = .ok .ended) :
    cs = [] ∨ ∃ rest, cs = .dry :: rest := by
  cases cs with
  | nil => exact .inl rfl
  | cons cue cs =>
    cases cue with
    | dry => exact .inr ⟨cs, rfl⟩
    | failed f => contradiction
    | byte b =>
      simp only [portion] at h
      cases width : Utf8.width b with
      | zero =>
        rw [width] at h
        contradiction
      | succ more =>
        rw [width] at h
        exact absurd h continued_not_ended

/-- A fault that strikes a sequence is answered, and the sequence is gone as far as it was taken. -/
theorem continued_struck {tail : List UInt8} (f : Fault) (rest : List Cue)
    (all : ∀ b ∈ tail, Utf8.isContinuation b = true) (few : tail.length < more) :
    continued lead more seq (tail.map .byte ++ .failed f :: rest) =
      ⟨.error f, seq ++ tail, rest⟩ := by
  induction tail generalizing more seq with
  | nil =>
    obtain ⟨more, rfl⟩ := Nat.exists_eq_add_one_of_ne_zero (Nat.ne_of_gt few)
    simp [continued]
  | cons b tail ih =>
    obtain ⟨more, rfl⟩ := Nat.exists_eq_add_one_of_ne_zero (Nat.ne_of_gt (Nat.zero_lt_of_lt few))
    obtain ⟨first, others⟩ := List.forall_mem_cons.mp all
    rw [List.map_cons, List.cons_append, continued, if_pos first,
      ih others (Nat.lt_of_succ_lt_succ few), List.append_assoc]
    rfl

theorem portion_struck {b : UInt8} {tail : List UInt8} (f : Fault) (rest : List Cue)
    (all : ∀ b ∈ tail, Utf8.isContinuation b = true) (few : tail.length + 1 < Utf8.width b) :
    portion offset ((b :: tail).map .byte ++ .failed f :: rest) = ⟨.error f, b :: tail, rest⟩ := by
  obtain ⟨more, width⟩ := Nat.exists_eq_add_one_of_ne_zero (Nat.ne_of_gt (Nat.zero_lt_of_lt few))
  rw [width] at few
  simp only [List.map_cons, List.cons_append, portion, width]
  exact continued_struck f rest all (Nat.lt_of_succ_lt_succ few)

theorem continued_suffix (lead more : Nat) (seq : List UInt8) (cs : List Cue) :
    (continued lead more seq cs).rest <:+ cs := by
  fun_induction continued lead more seq cs with
  | case2 more seq b cs continues ih => exact ih.trans (List.suffix_cons ..)
  | case4 | case5 => exact List.suffix_cons ..
  | case1 | case3 | case6 => exact List.suffix_rfl

theorem portion_suffix (offset : Nat) (cs : List Cue) : (portion offset cs).rest <:+ cs := by
  unfold portion
  split
  · exact List.suffix_rfl
  · exact List.suffix_cons ..
  · exact List.suffix_cons ..
  · split
    · exact List.suffix_cons ..
    · exact (continued_suffix ..).trans (List.suffix_cons ..)

/-- A portion that ends in front of a pause or a fault is taken without a look at it. -/
theorem continued_before {front left behind : List Cue} {x : Cue} (pause : x.byte? = none)
    (rest : (continued lead more seq (front ++ x :: behind)).rest = left ++ x :: behind) :
    continued lead more seq (front ++ behind) =
      { continued lead more seq (front ++ x :: behind) with rest := left ++ behind } := by
  induction front generalizing more seq with
  | nil =>
    cases more with
    | zero =>
      obtain rfl : [] = left := List.append_cancel_right rest
      rfl
    | succ more =>
      -- Here the pause itself would have been taken.
      have short : behind.length = left.length + (behind.length + 1) := by
        cases x with
        | byte b => cases pause
        | dry | failed f => simpa [continued] using congrArg List.length rest
      omega
  | cons cue front ih =>
    cases more with
    | zero =>
      obtain rfl : cue :: front = left := List.append_cancel_right rest
      rfl
    | succ more =>
      cases cue with
      | byte b =>
        simp only [List.cons_append, continued] at rest ⊢
        split at rest
        · rename_i continues
          rw [if_pos continues, if_pos continues]
          exact ih rest
        · rename_i stops
          obtain rfl : .byte b :: front = left := List.append_cancel_right rest
          rw [if_neg stops, if_neg stops]
          rfl
      | dry | failed f =>
        obtain rfl : front = left := List.append_cancel_right rest
        rfl

theorem portion_before {front left behind : List Cue} {x : Cue} (pause : x.byte? = none)
    (rest : (portion offset (front ++ x :: behind)).rest = left ++ x :: behind) :
    portion offset (front ++ behind) =
      { portion offset (front ++ x :: behind) with rest := left ++ behind } := by
  cases front with
  | nil =>
    have short : behind.length = left.length + (behind.length + 1) := by
      cases x with
      | byte b => cases pause
      | dry | failed f => simpa [portion] using congrArg List.length rest
    omega
  | cons cue front =>
    cases cue with
    | byte b =>
      simp only [List.cons_append, portion] at rest ⊢
      cases width : Utf8.width b with
      | zero =>
        rw [width] at rest
        obtain rfl : front = left := List.append_cancel_right rest
        rfl
      | succ more =>
        rw [width] at rest
        exact continued_before pause rest
    | dry | failed f =>
      obtain rfl : front = left := List.append_cancel_right rest
      rfl

end Cue

/-! The step that a pause or a fault comes from. -/

theorem Cue.past_bytes {bs : List UInt8} {rest front behind : List Cue} {x : Cue}
    (pause : x.byte? = none) (h : bs.map Cue.byte ++ rest = front ++ x :: behind) :
    ∃ front', front = bs.map Cue.byte ++ front' ∧ rest = front' ++ x :: behind := by
  induction bs generalizing front with
  | nil => exact ⟨front, rfl, h⟩
  | cons b bs ih =>
    cases front with
    | nil =>
      cases h
      cases pause
    | cons cue front =>
      obtain ⟨rfl, tail⟩ := List.cons.inj h
      obtain ⟨front', rfl, rest⟩ := ih tail
      exact ⟨front', rfl, rest⟩

theorem ReadStep.cues_cases (step : ReadStep) :
    (∃ y, step.cues = [y] ∧ step.brought = []) ∨ ∃ bs : List UInt8, step.cues = bs.map .byte := by
  cases step with
  | bytes bs =>
    cases bs with
    | nil => exact .inl ⟨.dry, rfl, rfl⟩
    | cons b bs => exact .inr ⟨b :: bs, rfl⟩
  | dry => exact .inl ⟨.dry, rfl, rfl⟩
  | failed f => exact .inl ⟨.failed f, rfl, rfl⟩

theorem ReadStep.exists_step {device : List ReadStep} {front behind : List Cue} {x : Cue}
    (pause : x.byte? = none) (h : device.flatMap cues = front ++ x :: behind) :
    ∃ pre step post, device = pre ++ step :: post ∧ step.brought = [] ∧ step.cues = [x] ∧
      pre.flatMap cues = front ∧ post.flatMap cues = behind := by
  induction device generalizing front with
  | nil => simp at h
  | cons step device ih =>
    rw [List.flatMap_cons] at h
    rcases step.cues_cases with ⟨y, one, nothing⟩ | ⟨bs, some⟩
    · rw [one] at h
      cases front with
      | nil =>
        obtain ⟨rfl, rest⟩ := List.cons.inj h
        exact ⟨[], step, device, rfl, nothing, one, rfl, rest⟩
      | cons cue front =>
        obtain ⟨rfl, rest⟩ := List.cons.inj h
        obtain ⟨pre, found, post, rfl, brought, cues, before, after⟩ := ih rest
        refine ⟨step :: pre, found, post, rfl, brought, cues, ?_, after⟩
        rw [List.flatMap_cons, one, before]
        rfl
    · rw [some] at h
      obtain ⟨front', rfl, rest⟩ := Cue.past_bytes pause h
      obtain ⟨pre, found, post, rfl, brought, cues, before, after⟩ := ih rest
      refine ⟨step :: pre, found, post, rfl, brought, cues, ?_, after⟩
      rw [List.flatMap_cons, some, before]

namespace ByteSource

variable {s u : ByteSource} {c : Char}

/-- The bytes still to come, if no fault strikes them. -/
def remaining (s : ByteSource) : List UInt8 := s.unread ++ s.device.flatMap ReadStep.brought

/-- The bytes that the next read uses up. -/
def used (s : ByteSource) : List UInt8 :=
  s.remaining.take (s.remaining.length - s.read.2.remaining.length)

theorem bytes_ahead (s : ByteSource) : Cue.bytes s.ahead = s.remaining := by
  rw [remaining, ← Cue.bytes_device, ← Cue.bytes_map s.unread]
  exact List.filterMap_append

theorem used_of_closed (shut : s.closed = true) : s.used = [] := by
  simp [used, read_of_closed shut]

theorem used_of_open (opened : s.closed = false) :
    s.used = (Cue.portion s.offset s.ahead).used := by
  have parts := Cue.portion_bytes s.offset s.ahead
  rw [← (read_takes opened).ahead, bytes_ahead, bytes_ahead] at parts
  rw [used, ← parts, List.length_append, Nat.add_sub_cancel, List.take_left]

theorem read_closed (s : ByteSource) : s.read.2.closed = s.closed := by
  cases shut : s.closed with
  | true =>
    rw [read_of_closed shut]
    exact shut
  | false => exact (read_takes shut).closed.trans shut

/-- A read uses up the front of what remains. -/
theorem read_remaining (s : ByteSource) : s.remaining = s.used ++ s.read.2.remaining := by
  cases shut : s.closed with
  | true => rw [used_of_closed shut, read_of_closed shut, List.nil_append]
  | false =>
    rw [used_of_open shut, ← bytes_ahead, ← bytes_ahead, (read_takes shut).ahead,
      Cue.portion_bytes]

theorem read_offset (s : ByteSource) : s.read.2.offset = s.offset + s.used.length := by
  cases shut : s.closed with
  | true => rw [used_of_closed shut, read_of_closed shut, List.length_nil, Nat.add_zero]
  | false =>
    rw [used_of_open shut]
    exact (read_takes shut).offset

theorem used_char (answer : s.read.1 = .ok (.char c)) : s.used = Utf8.encode c := by
  cases shut : s.closed with
  | true =>
    rw [read_of_closed shut] at answer
    cases answer
  | false =>
    rw [used_of_open shut]
    exact Cue.portion_char ((read_takes shut).answer.symm.trans answer)

theorem read_suffix (s : ByteSource) : s.read.2.ahead <:+ s.ahead := by
  cases shut : s.closed with
  | true =>
    have still : s.read.2 = s := congrArg Prod.snd (read_of_closed shut)
    exact ⟨[], congrArg ByteSource.ahead still⟩
  | false =>
    rw [(read_takes shut).ahead]
    exact Cue.portion_suffix ..

/-- The next read comes after the end or a close, or meets a fault in front of any byte. -/
def Idle (s : ByteSource) : Prop :=
  s.closed = true ∨ s.read.1 = .ok .ended ∨ ∃ f rest, s.ahead = .failed f :: rest

/-- Such a read takes at most the pause or the fault. -/
theorem idle_cases (idle : s.Idle) (opened : s.closed = false) :
    (s.ahead = [] ∧ s.read.2.ahead = []) ∨
      ∃ x, x.byte? = none ∧ s.ahead = x :: s.read.2.ahead := by
  have takes := read_takes opened
  rcases idle with shut | ended | ⟨f, rest, ahead⟩
  · rw [opened] at shut
    cases shut
  · rcases Cue.portion_ended (takes.answer.symm.trans ended) with ahead | ⟨rest, ahead⟩
    · refine .inl ⟨ahead, ?_⟩
      rw [takes.ahead, ahead]
      rfl
    · refine .inr ⟨.dry, rfl, ?_⟩
      rw [takes.ahead, ahead]
      rfl
  · refine .inr ⟨.failed f, rfl, ?_⟩
    rw [takes.ahead, ahead]
    rfl

theorem used_idle (idle : s.Idle) : s.used = [] := by
  cases opened : s.closed with
  | true => exact used_of_closed opened
  | false =>
    have same : s.remaining = s.read.2.remaining := by
      rw [← bytes_ahead, ← bytes_ahead]
      rcases idle_cases idle opened with ⟨none, left⟩ | ⟨x, pause, ahead⟩
      · rw [none, left]
      · rw [ahead]
        exact List.filterMap_cons_none pause
    simp [used, same]

/-! Calls one after another. -/

def call (s : ByteSource) : Call → ByteSource
  | .next => s.read.2
  | .close => s.close

def called (s : ByteSource) (calls : List Call) : ByteSource := calls.foldl call s

/-- What each call is answered, if it is a read, with the offset behind it. -/
def replies (s : ByteSource) : List Call → List (Option (Except Fault Item) × Nat)
  | [] => []
  | .next :: calls => (some s.read.1, s.read.2.offset) :: s.read.2.replies calls
  | .close :: calls => (none, s.close.offset) :: s.close.replies calls

/-- The bytes that each call uses up. -/
def usedBy (s : ByteSource) : List Call → List (List UInt8)
  | [] => []
  | .next :: calls => s.used :: s.read.2.usedBy calls
  | .close :: calls => [] :: s.close.usedBy calls

theorem called_append (s : ByteSource) (before after : List Call) :
    s.called (before ++ after) = (s.called before).called after := List.foldl_append

theorem replies_append (s : ByteSource) (before after : List Call) :
    s.replies (before ++ after) = s.replies before ++ (s.called before).replies after := by
  induction before generalizing s with
  | nil => rfl
  | cons call before ih => cases call <;> exact congrArg (_ :: ·) (ih _)

theorem called_suffix (s : ByteSource) (calls : List Call) : (s.called calls).ahead <:+ s.ahead := by
  induction calls generalizing s with
  | nil => exact List.suffix_rfl
  | cons call calls ih =>
    cases call with
    | next => exact (ih s.read.2).trans s.read_suffix
    | close => exact (ih s.close).trans (List.nil_suffix)

theorem called_closed (shut : s.closed = true) (calls : List Call) :
    (s.called calls).closed = true := by
  induction calls generalizing s with
  | nil => exact shut
  | cons call calls ih =>
    cases call with
    | next => exact ih (s.read_closed.trans shut)
    | close => exact ih rfl

theorem called_offset (s : ByteSource) (calls : List Call) :
    (s.called calls).offset = s.offset + (s.usedBy calls).flatten.length := by
  induction calls generalizing s with
  | nil => rfl
  | cons call calls ih =>
    refine (ih (s.call call)).trans ?_
    cases call with
    | next =>
      rw [call, s.read_offset, usedBy, List.flatten_cons, List.length_append, Nat.add_assoc]
    | close => rfl

/-- A close leaves nothing ahead. -/
def Quiet (s : ByteSource) : Prop := s.closed = true → s.ahead = []

theorem Quiet.call (h : s.Quiet) (call : Call) : (s.call call).Quiet := by
  cases call with
  | next =>
    intro shut
    have nothing := h (s.read_closed.symm.trans shut)
    exact List.suffix_nil.mp (nothing ▸ s.read_suffix)
  | close => exact fun _ => rfl

theorem Quiet.called (h : s.Quiet) (calls : List Call) : (s.called calls).Quiet := by
  induction calls generalizing s with
  | nil => exact h
  | cons call calls ih => exact ih (h.call call)

/-- Bytes are used up in their order, and what is left has not been used; a close lets it go. -/
theorem called_remaining (quiet : s.Quiet) (calls : List Call) :
    ∃ rest, s.remaining = (s.usedBy calls).flatten ++ rest ∧
      (s.called calls).remaining = if (s.called calls).closed then [] else rest := by
  induction calls generalizing s with
  | nil =>
    refine ⟨s.remaining, rfl, ?_⟩
    cases shut : s.closed with
    | true => rw [called, List.foldl_nil, shut, ← bytes_ahead, quiet shut, if_pos rfl]; rfl
    | false => rw [called, List.foldl_nil, shut, if_neg Bool.false_ne_true]
  | cons call calls ih =>
    cases call with
    | next =>
      obtain ⟨rest, order, left⟩ := ih (s := s.read.2) (quiet.call .next)
      refine ⟨rest, ?_, left⟩
      rw [usedBy, List.flatten_cons, List.append_assoc, ← order]
      exact s.read_remaining
    | close =>
      obtain ⟨rest, order, left⟩ := ih (s := s.close) (quiet.call .close)
      have none : (s.close.usedBy calls).flatten = [] := (List.append_eq_nil_iff.mp order.symm).1
      have shut : (s.called (.close :: calls)).closed = true := called_closed rfl calls
      refine ⟨s.remaining, ?_, ?_⟩
      · rw [usedBy, List.flatten_cons, none]
        rfl
      · rw [shut, if_pos rfl, ← bytes_ahead]
        rw [quiet.called (.close :: calls) shut]
        rfl

/-! Without an interruption. -/

/-- The pause or fault `x` and then `behind` are ahead of `s`, with something in front of them, and
`u` has all of that but `x` ahead. -/
structure Apart (x : Cue) (behind : List Cue) (s u : ByteSource) : Prop where
  ahead : ∃ front, s.ahead = front ++ x :: behind ∧ u.ahead = front ++ behind
  offset : s.offset = u.offset
  closed : s.closed = u.closed

variable {x : Cue} {behind : List Cue}

theorem Apart.read (pause : x.byte? = none) (h : Apart x behind s u)
    (left : x :: behind <:+ s.read.2.ahead) :
    s.read.1 = u.read.1 ∧ Apart x behind s.read.2 u.read.2 := by
  cases shut : s.closed with
  | true =>
    rw [read_of_closed shut, read_of_closed (h.closed ▸ shut)]
    exact ⟨rfl, h⟩
  | false =>
    obtain ⟨front, whole, without⟩ := h.ahead
    have here := read_takes shut
    have there := read_takes (s := u) (h.closed ▸ shut)
    obtain ⟨left, split⟩ := left
    rw [here.ahead, whole] at split
    have same := Cue.portion_before pause split.symm
    rw [whole] at here
    rw [without, ← h.offset, same] at there
    refine ⟨here.answer.trans there.answer.symm, ⟨left, ?_, there.ahead⟩, ?_, ?_⟩
    · exact here.ahead.trans split.symm
    · exact here.offset.trans (h.offset ▸ there.offset.symm)
    · exact here.closed.trans (h.closed.trans there.closed.symm)

theorem Apart.called (pause : x.byte? = none) (h : Apart x behind s u) (calls : List Call)
    (left : x :: behind <:+ (s.called calls).ahead) :
    s.replies calls = u.replies calls ∧ Apart x behind (s.called calls) (u.called calls) := by
  induction calls generalizing s u with
  | nil => exact ⟨rfl, h⟩
  | cons call calls ih =>
    cases call with
    | next =>
      obtain ⟨answer, later⟩ := h.read pause (left.trans (called_suffix s.read.2 calls))
      obtain ⟨replies, last⟩ := ih later left
      refine ⟨?_, last⟩
      rw [ByteSource.replies, ByteSource.replies, answer, later.offset, replies]
    | close =>
      have nothing : x :: behind <:+ [] := left.trans (called_suffix s.close calls)
      cases List.suffix_nil.mp nothing

theorem Same.replies (h : Same s u) (calls : List Call) : s.replies calls = u.replies calls := by
  induction calls generalizing s u with
  | nil => rfl
  | cons call calls ih =>
    cases call with
    | next =>
      obtain ⟨answer, later⟩ := h.read
      rw [ByteSource.replies, ByteSource.replies, answer, later.offset, ih later]
    | close =>
      have later : Same s.close u.close := ⟨rfl, h.offset, rfl⟩
      rw [ByteSource.replies, ByteSource.replies, later.offset, ih later]

/-- `spared` is `device` without the pause or the fault that comes next for `s`, if one does. -/
def Spares (device spared : List ReadStep) (s : ByteSource) : Prop :=
  (s.ahead = [] ∧ spared = device) ∨
    ∃ pre step post, device = pre ++ step :: post ∧ spared = pre ++ post ∧ step.brought = [] ∧
      s.ahead = (step :: post).flatMap ReadStep.cues

/-- A read that takes nothing leaves the source as before, but for the pause or the fault. -/
theorem idle_rest (idle : s.Idle) :
    s.read.2.offset = s.offset ∧ s.read.2.closed = s.closed := by
  have offset := s.read_offset
  rw [used_idle idle] at offset
  exact ⟨offset, s.read_closed⟩

/-- An interruption leaves the calls before it and behind it as they are without it. -/
theorem exists_spared (device : List ReadStep) {before : List Call}
    (idle : ((ofDevice device).called before).Idle) (after : List Call) :
    ∃ spared, Spares device spared ((ofDevice device).called before) ∧
      (ofDevice spared).replies (before ++ after) = (ofDevice device).replies before ++
        ((ofDevice device).called before).read.2.replies after := by
  let s := ofDevice device
  let v := s.called before
  obtain ⟨offset, closed⟩ := idle_rest idle
  have unmet (ahead : v.ahead = []) (left : v.read.2.ahead = []) : ∃ spared,
      Spares device spared v ∧ (ofDevice spared).replies (before ++ after) =
        s.replies before ++ v.read.2.replies after := by
    have same : Same v v.read.2 := ⟨ahead.trans left.symm, offset.symm, closed.symm⟩
    refine ⟨device, .inl ⟨ahead, rfl⟩, ?_⟩
    rw [replies_append, ← same.replies]
  cases shut : v.closed with
  | true =>
    have nothing : v.ahead = [] := Quiet.called (s := s) nofun before shut
    exact unmet nothing (by rw [read_of_closed shut, nothing])
  | false =>
    rcases idle_cases idle shut with ⟨ahead, left⟩ | ⟨x, pause, ahead⟩
    · exact unmet ahead left
    · obtain ⟨front, whole⟩ : x :: v.read.2.ahead <:+ s.ahead := ahead ▸ called_suffix s before
      have parts : device.flatMap ReadStep.cues = front ++ x :: v.read.2.ahead := whole.symm
      obtain ⟨pre, step, post, split, nothing, cues, start, behind⟩ :=
        ReadStep.exists_step pause parts
      have apart : Apart x v.read.2.ahead s (ofDevice (pre ++ post)) := by
        refine ⟨⟨front, whole.symm, ?_⟩, rfl, rfl⟩
        rw [← start, ← behind]
        exact List.flatMap_append
      obtain ⟨same, last⟩ := apart.called pause before (ahead ▸ List.suffix_rfl)
      obtain ⟨front', whole', without⟩ := last.ahead
      -- Nothing is in front of the interruption when it is met.
      obtain rfl : [] = front' := List.append_cancel_right (ahead.symm.trans whole')
      have later : Same v.read.2 ((ofDevice (pre ++ post)).called before) :=
        ⟨without.symm, offset.trans last.offset, closed.trans last.closed⟩
      refine ⟨pre ++ post, .inr ⟨pre, step, post, split, rfl, nothing, ?_⟩, ?_⟩
      · rw [List.flatMap_cons, cues, behind]
        exact ahead
      · rw [replies_append, ← same, ← later.replies]

/-- A fault of the device inside a sequence is answered, and what was taken of it is used up. -/
theorem read_struck {lead : UInt8} {tail : List UInt8} {f : Fault} {rest : List Cue}
    (opened : s.closed = false) (ahead : s.ahead = (lead :: tail).map .byte ++ .failed f :: rest)
    (all : ∀ b ∈ tail, Utf8.isContinuation b = true) (few : tail.length + 1 < Utf8.width lead) :
    s.read.1 = .error f ∧ s.used = lead :: tail ∧ s.read.2.ahead = rest := by
  have takes := read_takes opened
  rw [used_of_open opened]
  rw [ahead, Cue.portion_struck f rest all few] at takes ⊢
  exact ⟨takes.answer, rfl, takes.ahead⟩

/-- Whatever character is read later, its bytes stand behind those that a read used up. -/
theorem later_char (quiet : s.Quiet) (calls : List Call)
    (answer : (s.read.2.called calls).read.1 = .ok (.char c)) :
    ∃ between rest, s.remaining = s.used ++ between ++ Utf8.encode c ++ rest := by
  have order := s.read_remaining
  obtain ⟨left, parts, stands⟩ := called_remaining (s := s.read.2) (quiet.call .next) calls
  obtain ⟨v, reached⟩ : ∃ v, v = s.read.2.called calls := ⟨_, rfl⟩
  rw [← reached] at answer stands
  have opened : v.closed = false := by
    cases shut : v.closed with
    | true =>
      rw [read_of_closed shut] at answer
      cases answer
    | false => rfl
  rw [opened, if_neg Bool.false_ne_true, v.read_remaining, used_char answer] at stands
  refine ⟨(s.read.2.usedBy calls).flatten, v.read.2.remaining, ?_⟩
  rw [order, parts, ← stands]
  simp only [List.append_assoc]

/-- The bytes that failed reads have used up. -/
def lost (s : ByteSource) : List Call → Nat
  | [] => 0
  | .next :: calls => (if s.read.1.isOk then 0 else s.used.length) + s.read.2.lost calls
  | .close :: calls => s.close.lost calls

theorem lost_append (s : ByteSource) (before after : List Call) :
    s.lost (before ++ after) = s.lost before + (s.called before).lost after := by
  induction before generalizing s with
  | nil => exact (Nat.zero_add _).symm
  | cons call before ih =>
    cases call with
    | next =>
      rw [List.cons_append, lost, ih, lost, Nat.add_assoc]
      rfl
    | close => exact ih s.close

/-- How `s`, the source over `device` behind `calls`, stands to the bytes of the device. They are used
up in their order, and the offset counts them. A character is answered for just its sequence. An
idle read uses up nothing, and without the pause or the fault that it meets the other calls are
answered the same. A fault inside a sequence leaves what was taken of it used up, and no character
is made of what was used up before. -/
structure Books (device : List ReadStep) (calls : List Call) (s : ByteSource) : Prop where
  ordered : ∃ rest,
    device.flatMap ReadStep.brought = ((ofDevice device).usedBy calls).flatten ++ rest ∧
      s.remaining = if s.closed then [] else rest
  counted : s.offset = ((ofDevice device).usedBy calls).flatten.length
  whole : ∀ c, s.read.1 = .ok (.char c) → s.used = Utf8.encode c
  idle : s.Idle → s.used = []
  spared : s.Idle → ∀ after, ∃ spared late, Spares device spared s ∧
    (ofDevice device).replies (calls ++ .next :: after) =
      (ofDevice device).replies calls ++ (some s.read.1, s.offset) :: late ∧
    (ofDevice spared).replies (calls ++ after) = (ofDevice device).replies calls ++ late
  struck : s.closed = false → ∀ lead tail f rest,
    s.ahead = (lead :: tail).map .byte ++ .failed f :: rest →
    (∀ b ∈ tail, Utf8.isContinuation b = true) → tail.length + 1 < Utf8.width lead →
    s.read.1 = .error f ∧ s.used = lead :: tail ∧ s.read.2.ahead = rest
  later : ∀ calls' c, (s.read.2.called calls').read.1 = .ok (.char c) →
    ∃ between rest, s.remaining = s.used ++ between ++ Utf8.encode c ++ rest

theorem books_called (device : List ReadStep) (calls : List Call) :
    Books device calls ((ofDevice device).called calls) := by
  have quiet : (ofDevice device).Quiet := nofun
  constructor
  · exact called_remaining quiet calls
  · exact (called_offset (ofDevice device) calls).trans (Nat.zero_add _)
  · exact fun c => used_char
  · exact used_idle
  · intro idle after
    obtain ⟨spared, spares, same⟩ := exists_spared device idle after
    refine ⟨spared, _, spares, ?_, same⟩
    rw [replies_append, replies, (idle_rest idle).1]
  · exact fun opened lead tail f rest => read_struck opened
  · exact fun calls' c => later_char (quiet.called calls) calls'

/-- What was taken of a sequence is gone with the fault inside it. -/
example (f : Fault) :
    (ofDevice [.bytes [0xE2, 0x82], .failed f, .dry, .bytes [0x41]]).usedBy [.next, .next, .next] =
      [[0xE2, 0x82], [], [0x41]] := rfl

end ByteSource
end EscapedText
