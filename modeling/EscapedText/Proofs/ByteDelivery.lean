import EscapedText.ByteView.Collect
import EscapedText.Proofs.Reading

/-!
What a view of bytes delivers. Bytes and failures come in the order of the translator's answers,
each once, whatever buffers they are read into; what is held back between reads is the rest of one
character or one failure.
-/
namespace EscapedText

/-- Bytes and failures, as a consumer meets them one by one. -/
abbrev Signal := Except Fault UInt8

/-- An answer of a translator as signals. The end of the input is none. -/
def signals : Except Failure Item → List Signal
  | .ok (.char c) => (Utf8.encode c).map .ok
  | .ok .ended => []
  | .error f => [.error f.toFault]

def delivered : Except Fault (Array UInt8) → List Signal
  | .ok bytes => bytes.toList.map .ok
  | .error f => [.error f]

open Translator (answers)

theorem signals_answers (cs : List Char) :
    (answers cs).flatMap signals = (cs.flatMap Utf8.encode).map .ok := by
  induction cs with
  | nil => rfl
  | cons c cs ih =>
    rw [List.flatMap_cons, List.map_append, ← ih]
    rfl

theorem eq_nil_of_encoded {cs : List Char} (h : cs.flatMap Utf8.encode = []) : cs = [] := by
  cases cs with
  | nil => rfl
  | cons c cs => exact absurd (List.append_eq_nil_iff.mp h).1 (Utf8.encode_ne_nil c)

namespace ByteView

variable {σ : Type}

/-- The bytes not yet delivered of the last character taken. -/
def kept (v : ByteView σ) : List UInt8 := v.encoded.drop v.start

/-- What a view has taken and not delivered. -/
def owed (v : ByteView σ) : List Signal :=
  v.kept.map .ok ++ v.deferred.toList.map fun f => .error f.toFault

/-- Little is held back: part of one character, or one failure. -/
structure Modest (v : ByteView σ) : Prop where
  few : v.kept.length ≤ 3
  part : ∃ c, v.kept <:+ Utf8.encode c
  apart : v.deferred = none ∨ v.kept = []

theorem modest_of_kept_nil {v : ByteView σ} (h : v.kept = []) : v.Modest := by
  refine ⟨?_, ⟨'0', ?_⟩, .inr h⟩
  · simp [h]
  · simp [h]

theorem kept_eq_nil {v : ByteView σ} (h : ¬ v.start < v.encoded.length) : v.kept = [] :=
  List.drop_eq_nil_of_le (Nat.le_of_not_lt h)

theorem block_append_kept (v : ByteView σ) (room : Nat) :
    v.block room ++ kept { v with start := v.start + (v.block room).length } = v.kept := by
  have front : v.block room = v.kept.take (v.block room).length := by
    rw [length_block]
    simp [block, kept, List.take_eq_take_min]
  have rest : kept { v with start := v.start + (v.block room).length } =
      v.kept.drop (v.block room).length := by
    simp [kept, List.drop_drop]
  rw [rest]
  exact (congrArg (· ++ _) front).trans (List.take_append_drop _ _)

/-- How filling a buffer ends when `ready` comes first and `limit` bytes fit: it is full, or an
answer that is no character stopped it. -/
inductive Filled (ready : List UInt8) (limit : Nat) (v : ByteView σ) :
    List (Except Failure Item) → Except Fault (Array UInt8) → Prop where
  | full (cs : List Char) {bytes : Array UInt8} (size : bytes.size = limit)
    (now : v.deferred = none)
    (order : bytes.toList ++ v.kept = ready ++ cs.flatMap Utf8.encode) :
    Filled ready limit v (answers cs) (.ok bytes)
  | ended (cs : List Char) {bytes : Array UInt8} (size : bytes.size < limit)
    (now : v.deferred = none) (nil : v.kept = [])
    (order : bytes.toList = ready ++ cs.flatMap Utf8.encode) :
    Filled ready limit v (answers cs ++ [.ok .ended]) (.ok bytes)
  | stopped (cs : List Char) {bytes : Array UInt8} {f : Failure} (size : bytes.size < limit)
    (any : 0 < bytes.size) (later : v.deferred = some f) (nil : v.kept = [])
    (order : bytes.toList = ready ++ cs.flatMap Utf8.encode) :
    Filled ready limit v (answers cs ++ [.error f]) (.ok bytes)
  | failed {f : Failure} (size : 0 < limit) (first : ready = []) (now : v.deferred = none)
    (nil : v.kept = []) :
    Filled ready limit v [.error f] (.error f.toFault)

theorem Filled.cons {ready : List UInt8} {limit : Nat} {c : Char}
    {took : List (Except Failure Item)} {answer : Except Fault (Array UInt8)}
    (h : Filled (ready ++ Utf8.encode c) limit v took answer) :
    Filled ready limit v (.ok (.char c) :: took) answer := by
  cases h with
  | @full cs bytes size now order =>
    exact .full (c :: cs) size now (by simpa using order)
  | @ended cs bytes size now nil order =>
    exact .ended (c :: cs) size now nil (by simpa using order)
  | @stopped cs bytes f size any later nil order =>
    exact .stopped (c :: cs) size any later nil (by simpa using order)
  | @failed f size first now nil =>
    exact absurd (List.append_eq_nil_iff.mp first).2 (Utf8.encode_ne_nil c)

section

variable {ready : List UInt8} {limit : Nat} {v : ByteView σ} {took : List (Except Failure Item)}
  {bytes : Array UInt8}

theorem Filled.delivered {answer : Except Fault (Array UInt8)}
    (h : Filled ready limit v took answer) :
    delivered answer ++ v.owed = ready.map .ok ++ took.flatMap signals := by
  cases h with
  | full cs size now order =>
    rw [signals_answers, ← List.map_append, ← order, owed, now]
    simp [EscapedText.delivered]
  | ended cs size now nil order =>
    rw [List.flatMap_append, signals_answers, owed, now, nil]
    simp [EscapedText.delivered, order, signals]
  | stopped cs size any later nil order =>
    rw [List.flatMap_append, signals_answers, owed, later, nil]
    simp [EscapedText.delivered, order, signals]
  | failed size first now nil =>
    rw [owed, now, nil, first]
    simp [EscapedText.delivered, signals]

theorem Filled.size_le (h : Filled ready limit v took (.ok bytes)) : bytes.size ≤ limit := by
  cases h with
  | full cs size => exact Nat.le_of_eq size
  | ended cs size => exact Nat.le_of_lt size
  | stopped cs size => exact Nat.le_of_lt size

theorem Filled.eq_ended (h : Filled ready limit v took (.ok #[])) (some : 0 < limit) :
    took = [.ok .ended] := by
  cases h with
  | full cs size => exact absurd size (Nat.ne_of_lt some)
  | ended cs size now nil order =>
    rw [eq_nil_of_encoded (List.append_eq_nil_iff.mp order.symm).2]
    rfl
  | stopped cs size any => exact absurd any (Nat.lt_irrefl 0)

theorem Filled.exists_stop (h : Filled ready limit v took (.ok bytes)) (less : bytes.size < limit) :
    ∃ cs last, took = answers cs ++ [last] ∧ ∀ c, last ≠ .ok (.char c) := by
  cases h with
  | full cs size => exact absurd size (Nat.ne_of_lt less)
  | ended cs => exact ⟨cs, _, rfl, by simp⟩
  | stopped cs => exact ⟨cs, _, rfl, by simp⟩

end

variable [Source σ] {b : Bookmarks} {v : ByteView σ} {room : Nat}

theorem fill_filled (room : Nat) (out : Array UInt8) (events : Array Event)
    (h : v.deferred = none) :
    ∃ n, (v.fill b room out events).state.translator =
        (v.translator.reads (List.replicate n b)).2 ∧
      Filled (out.toList ++ v.kept) (out.size + room) (v.fill b room out events).state
        (v.translator.reads (List.replicate n b)).1 (v.fill b room out events).answer ∧
      (v.fill b room out events).events =
        events ++ v.translator.reports (List.replicate n b) := by
  fun_induction fill b v room out events with
  | case1 v out events =>
    exact ⟨0, rfl, .full [] rfl h (by simp), Array.append_empty.symm⟩
  | case2 v room out events hr hs block ih =>
    obtain ⟨n, ht, hf, he⟩ := ih h
    refine ⟨n, ht, ?_, he⟩
    have fits : block.length ≤ room := by
      rw [length_block]
      exact Nat.min_le_left _ _
    have ready : (out ++ block.toArray).toList ++
        kept { v with start := v.start + block.length } = out.toList ++ v.kept := by
      rw [Array.toList_append, List.append_assoc, ← block_append_kept v room]
    have limit : (out ++ block.toArray).size + (room - block.length) = out.size + room := by
      have size : (out ++ block.toArray).size = out.size + block.length := Array.size_append
      omega
    rw [ready, limit] at hf
    exact hf
  | case3 v room out events hr hs turn all c hc ih =>
    obtain ⟨n, ht, hf, he⟩ := ih h
    refine ⟨n + 1, ht, ?_, he.trans Array.append_assoc⟩
    rw [kept_eq_nil hs, List.append_nil]
    simp only [List.replicate_succ, Translator.reads]
    rw [hc]
    exact hf.cons
  | case4 v room out events hr hs turn all he =>
    refine ⟨1, rfl, ?_, congrArg (events ++ ·) Array.append_empty.symm⟩
    simp only [List.replicate_succ, List.replicate_zero, Translator.reads]
    rw [he, kept_eq_nil hs]
    exact .ended [] (by omega) h (kept_eq_nil hs) (by simp)
  | case5 v room out events hr hs turn all f he hout =>
    have empty : out = #[] := Array.isEmpty_iff.mp hout
    refine ⟨1, rfl, ?_, congrArg (events ++ ·) Array.append_empty.symm⟩
    simp only [List.replicate_succ, List.replicate_zero, Translator.reads]
    rw [he, kept_eq_nil hs, empty]
    exact .failed (by omega) rfl h (kept_eq_nil hs)
  | case6 v room out events hr hs turn all f he hout =>
    have some : 0 < out.size := by
      refine Nat.pos_of_ne_zero fun zero => hout ?_
      exact Array.isEmpty_iff_size_eq_zero.mpr zero
    refine ⟨1, rfl, ?_, congrArg (events ++ ·) Array.append_empty.symm⟩
    simp only [List.replicate_succ, List.replicate_zero, Translator.reads]
    rw [he, kept_eq_nil hs]
    exact .stopped [] (by omega) some rfl (kept_eq_nil hs) (by simp)

/-- A buffer with room takes a byte of a whole character at least. -/
theorem modest_fill (room : Nat) (out : Array UInt8) (events : Array Event)
    (h : v.deferred = none) (width : v.kept.length ≤ 4) (few : room = 0 → v.kept.length ≤ 3)
    (part : ∃ c, v.kept <:+ Utf8.encode c) : (v.fill b room out events).state.Modest := by
  fun_induction fill b v room out events with
  | case1 v out events => exact ⟨few rfl, part, .inl h⟩
  | case2 v room out events hr hs block ih =>
    have rest : block ++ kept { v with start := v.start + block.length } = v.kept :=
      block_append_kept v room
    have copied : block.length = min room (v.encoded.length - v.start) := length_block v room
    have total := congrArg List.length rest
    rw [List.length_append] at total
    obtain ⟨c, hc⟩ := part
    refine ih h ?_ ?_ ⟨c, ?_⟩
    · omega
    · omega
    · exact List.IsSuffix.trans ⟨_, rest⟩ hc
  | case3 v room out events hr hs turn all c hc ih =>
    exact ih h (length_encode_le c) (fun hz => absurd hz hr) ⟨c, List.suffix_refl _⟩
  | case4 v room out events hr hs => exact modest_of_kept_nil (kept_eq_nil hs)
  | case5 v room out events hr hs => exact modest_of_kept_nil (kept_eq_nil hs)
  | case6 v room out events hr hs => exact modest_of_kept_nil (kept_eq_nil hs)

theorem modest_read (hv : v.Modest) : (v.read b room).state.Modest := by
  unfold read
  split
  · exact ⟨hv.few, hv.part, .inl rfl⟩
  · rename_i h
    exact modest_fill room #[] #[] h (Nat.le_succ_of_le hv.few) (fun _ => hv.few) hv.part

/-- A read with room for so many bytes takes `n` answers and delivers what they amount to, in
order. It comes back short only where an answer was no character. -/
structure Exact (b : Bookmarks) (v : ByteView σ) (room n : Nat) : Prop where
  state : (v.read b room).state.translator = (v.translator.reads (List.replicate n b)).2
  order : delivered (v.read b room).answer ++ (v.read b room).state.owed =
    v.owed ++ (v.translator.reads (List.replicate n b)).1.flatMap signals
  fits : ∀ bytes, (v.read b room).answer = .ok bytes → bytes.size ≤ room
  empty : 0 < room → (v.read b room).answer = .ok #[] →
    (v.translator.reads (List.replicate n b)).1 = [.ok .ended]
  short : ∀ bytes, (v.read b room).answer = .ok bytes → 0 < bytes.size → bytes.size < room →
    ∃ cs last, (v.translator.reads (List.replicate n b)).1 = answers cs ++ [last] ∧
      ∀ c, last ≠ .ok (.char c)
  idle : room = 0 → v.deferred = none → v.read b room = ⟨.ok #[], v, #[]⟩

theorem read_exact (b : Bookmarks) (room : Nat) (hv : v.Modest) : ∃ n, Exact b v room n := by
  cases h : v.deferred with
  | none =>
    have hr : v.read b room = v.fill b room #[] #[] := by rw [read, h]
    obtain ⟨n, state, hf, -⟩ := fill_filled (b := b) room #[] #[] h
    rw [← hr] at state hf
    have hf : Filled v.kept room (v.read b room).state
        (v.translator.reads (List.replicate n b)).1 (v.read b room).answer := by simpa using hf
    refine ⟨n, state, ?_, ?_, ?_, ?_, ?_⟩
    · rw [hf.delivered, owed, h]
      simp
    · intro bytes hb
      exact (hb ▸ hf).size_le
    · intro some none
      exact (none ▸ hf).eq_ended some
    · intro bytes hb any less
      exact (hb ▸ hf).exists_stop less
    · intro zero _
      rw [hr, fill, if_pos zero]
  | some f =>
    have hr : v.read b room = ⟨.error f.toFault, { v with deferred := none }, #[]⟩ := by
      rw [read, h]
    have nil : v.kept = [] := hv.apart.resolve_left (by simp [h])
    have nil' : kept { v with deferred := none } = [] := nil
    refine ⟨0, ?_, ?_, ?_, ?_, ?_, ?_⟩
    · rw [hr]
      rfl
    · rw [hr, owed, owed, nil, nil', h]
      rfl
    · simp [hr]
    · simp [hr]
    · simp [hr]
    · simp [h]

/-- Reads in order, each with the bookmarks as they stand and a buffer of its own size. -/
def readEach (v : ByteView σ) :
    List (Bookmarks × Nat) → List (Except Fault (Array UInt8)) × ByteView σ
  | [] => ([], v)
  | (b, room) :: asks =>
    let turn := v.read b room
    let later := turn.state.readEach asks
    (turn.answer :: later.1, later.2)

/-- The bookmarks at each answer of the translator, if the reads take so many answers each. -/
def books (asks : List (Bookmarks × Nat)) (counts : List Nat) : List Bookmarks :=
  (List.zipWith (fun ask n => List.replicate n ask.1) asks counts).flatten

theorem readEach_delivered (asks : List (Bookmarks × Nat)) (hv : v.Modest) :
    ∃ counts, counts.length = asks.length ∧
      (v.readEach asks).2.translator = (v.translator.reads (books asks counts)).2 ∧
      (v.readEach asks).1.flatMap delivered ++ (v.readEach asks).2.owed =
        v.owed ++ (v.translator.reads (books asks counts)).1.flatMap signals ∧
      (v.readEach asks).2.Modest := by
  induction asks generalizing v with
  | nil => exact ⟨[], rfl, rfl, by simp [readEach, books, Translator.reads], hv⟩
  | cons ask asks ih =>
    obtain ⟨b, room⟩ := ask
    obtain ⟨n, read⟩ := read_exact b room hv
    obtain ⟨counts, length, state, order, modest⟩ := ih (modest_read (b := b) hv)
    have split : v.translator.reads (books ((b, room) :: asks) (n :: counts)) =
        ((v.translator.reads (List.replicate n b)).1 ++
          ((v.read b room).state.translator.reads (books asks counts)).1,
        ((v.read b room).state.translator.reads (books asks counts)).2) := by
      rw [read.state, ← Translator.reads_append]
      rfl
    refine ⟨n :: counts, congrArg (· + 1) length, ?_, ?_, modest⟩
    · rw [split]
      exact state
    · rw [split, List.flatMap_append, ← List.append_assoc, ← read.order, List.append_assoc,
        ← order, ← List.append_assoc]
      rfl

theorem readEach_exact (t : Translator σ) (asks : List (Bookmarks × Nat)) :
    ∃ counts, counts.length = asks.length ∧
      ((ofTranslator t).readEach asks).2.translator = (t.reads (books asks counts)).2 ∧
      ((ofTranslator t).readEach asks).1.flatMap delivered ++
          ((ofTranslator t).readEach asks).2.owed =
        (t.reads (books asks counts)).1.flatMap signals ∧
      ((ofTranslator t).readEach asks).2.Modest ∧
      ∀ b room, ∃ n, Exact b ((ofTranslator t).readEach asks).2 room n := by
  obtain ⟨counts, length, state, order, modest⟩ :=
    readEach_delivered asks (v := ofTranslator t) (modest_of_kept_nil rfl)
  exact ⟨counts, length, state, order, modest, fun b room => read_exact b room modest⟩

end ByteView
end EscapedText
