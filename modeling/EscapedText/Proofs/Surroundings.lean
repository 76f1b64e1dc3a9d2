import EscapedText.Proofs.ByteReading
import Mathlib.Data.List.Forall2

/-!
Texts among other bytes. The sequence of a character never begins like the rest of another one, so
damage in front of a text stops where the text begins, as it would at the end of the input, and the
bytes behind it are read as if they were alone. Whatever surrounds a text, it comes out whole.
-/
namespace EscapedText

namespace Utf8

theorem not_continues_of_small {b : UInt8} (h : b < 0x80) : ¬ Continues b := by
  rintro ⟨low, -⟩
  exact UInt8.not_le.mpr h low

theorem high_of_opens {lead : UInt8} {more : Nat} (h : Opens lead more) : 0xC2 ≤ lead := by
  cases h with
  | two h => exact h.1
  | three h => exact UInt8.le_trans (by decide) h.1
  | four h => exact UInt8.le_trans (by decide) h.1

theorem not_continues_of_opens {lead : UInt8} {more : Nat} (h : Opens lead more) :
    ¬ Continues lead := by
  rintro ⟨-, high⟩
  have impossible : (0xC2 : UInt8) ≤ 0xBF := UInt8.le_trans (high_of_opens h) high
  exact absurd impossible (by decide)

theorem head_encode (c : Char) (rest : List UInt8) :
    ∀ b, (encode c ++ rest).head? = some b → ¬ Continues b := by
  intro b hb
  rcases encode_shape c with ⟨a, ha, small⟩ | ⟨lead, tail, more, hc, opens, -⟩
  · simp only [ha, List.cons_append, List.head?_cons, Option.some.injEq] at hb
    exact hb ▸ not_continues_of_small small
  · simp only [hc, List.cons_append, List.head?_cons, Option.some.injEq] at hb
    exact hb ▸ not_continues_of_opens opens

/-- Damage takes no byte that is a character by itself. -/
theorem Damaged.high {bs rest : List UInt8} (h : Damaged bs rest) : ∀ b ∈ bs, 0x80 ≤ b := by
  have opening {lead : UInt8} {tail : List UInt8} {more : Nat} (opens : Opens lead more)
      (all : ∀ b ∈ tail, Continues b) : ∀ b ∈ lead :: tail, 0x80 ≤ b := by
    intro b hb
    rcases List.mem_cons.mp hb with rfl | hb
    · exact UInt8.le_trans (by decide) (high_of_opens opens)
    · exact (all b hb).1
  cases h with
  | stray b _ stray =>
    intro x hx
    obtain rfl := List.mem_singleton.mp hx
    rcases stray with stray | stray
    · exact stray.1
    · exact UInt8.le_trans (by decide) stray
  | short lead tail _ opens all few stop => exact opening opens all
  | wrong lead tail _ opens all full illegal => exact opening opens all

namespace Segment

variable {gs hs : List Segment} {w : List UInt8}

/-- What stops damage at the end of the input stops it at any byte that continues nothing. -/
theorem Fits.append {g : Segment} {rest : List UInt8} (h : g.Fits rest)
    (start : ∀ b, w.head? = some b → ¬ Continues b) : g.Fits (rest ++ w) := by
  cases g with
  | char c => trivial
  | damaged bs =>
    cases h with
    | stray b _ stray => exact .stray b _ stray
    | short lead tail _ opens all few stop =>
      refine .short lead tail _ opens all few ?_
      cases rest with
      | nil => exact start
      | cons r rest => exact stop
    | wrong lead tail _ opens all full illegal => exact .wrong lead tail _ opens all full illegal

theorem allFit_append (all : AllFit gs) (all' : AllFit hs)
    (start : ∀ b, (hs.flatMap bytes).head? = some b → ¬ Continues b) : AllFit (gs ++ hs) := by
  induction gs with
  | nil => exact all'
  | cons g gs ih =>
    obtain ⟨fits, later⟩ := all
    have cut : (gs ++ hs).flatMap bytes = gs.flatMap bytes ++ hs.flatMap bytes :=
      List.flatMap_append
    exact ⟨cut ▸ fits.append start, ih later⟩

theorem allFit_chars_append (cs : List Char) (all : AllFit hs) :
    AllFit (cs.map char ++ hs) := by
  induction cs with
  | nil => exact all
  | cons c cs ih => exact ⟨trivial, ih⟩

end Segment
end Utf8

namespace ByteSource

open Utf8 (Segment)

variable {s : ByteSource} {gs hs : List Segment}

def goesOn : Except Fault Item → Bool
  | .ok .ended => false
  | _ => true

/-- All answers in front of the end of the input. There are not more of them than the size, since
each uses up a byte or an answer of the device. -/
def drain (s : ByteSource) : List (Except Fault Item) :=
  ((s.readings s.size).map Prod.fst).takeWhile goesOn

/-- `s` behind so many reads. -/
def behind (s : ByteSource) : Nat → ByteSource
  | 0 => s
  | n + 1 => s.read.2.behind n

/-- The same answer from bytes that stand `n` bytes further on. -/
inductive Shifted (n : Nat) : Except Fault Item → Except Fault Item → Prop where
  | char (c : Char) : Shifted n (.ok (.char c)) (.ok (.char c))
  | invalid (lead : Nat) : Shifted n (.error (invalid lead)) (.error (invalid (n + lead)))

/-- The answers to segments from `offset` on. -/
def answersTo (offset : Nat) (gs : List Segment) : List (Except Fault Item) :=
  (report offset gs).map Prod.fst

theorem answersTo_cons (offset : Nat) (g : Segment) (gs : List Segment) :
    answersTo offset (g :: gs) =
      answerTo offset g :: answersTo (offset + g.bytes.length) gs := rfl

theorem answersTo_append (offset : Nat) (gs hs : List Segment) :
    answersTo offset (gs ++ hs) = answersTo offset gs ++
      answersTo (offset + (gs.flatMap Segment.bytes).length) hs := by
  induction gs generalizing offset with
  | nil => rfl
  | cons g gs ih =>
    simp only [List.cons_append, answersTo_cons, ih, List.flatMap_cons, List.length_append,
      Nat.add_assoc]

theorem answersTo_chars (offset : Nat) (cs : List Char) :
    answersTo offset (cs.map .char) = cs.map fun c => .ok (.char c) := by
  induction cs generalizing offset with
  | nil => rfl
  | cons c cs ih => simp only [List.map_cons, answersTo_cons, ih, answerTo]

theorem shifted_answersTo (n offset : Nat) (gs : List Segment) :
    List.Forall₂ (Shifted n) (answersTo offset gs) (answersTo (n + offset) gs) := by
  induction gs generalizing offset with
  | nil => exact .nil
  | cons g gs ih =>
    have later := ih (offset + g.bytes.length)
    rw [← Nat.add_assoc] at later
    cases g with
    | char c => exact .cons (.char c) later
    | damaged bs => exact .cons (.invalid offset) later

theorem length_answersTo (offset : Nat) (gs : List Segment) :
    (answersTo offset gs).length = gs.length := by
  induction gs generalizing offset with
  | nil => rfl
  | cons g gs ih => simp only [answersTo_cons, List.length_cons, ih]

theorem length_le_total (pieces : List (List UInt8)) :
    pieces.flatten.length ≤ ReadStep.total (pieces.map .bytes) := by
  induction pieces with
  | nil => exact Nat.le_refl 0
  | cons p pieces ih =>
    simp only [List.flatten_cons, List.length_append, List.map_cons, ReadStep.total, ReadStep.size]
    omega

theorem length_le_size {v : List UInt8} (h : s.Serves v) : v.length ≤ s.size := by
  obtain ⟨pieces, device, -, rfl⟩ := h.ahead
  have brought := length_le_total pieces
  simp only [size, device, List.length_append]
  omega

theorem length_le_bytes (all : Segment.AllFit gs) :
    gs.length ≤ (gs.flatMap Segment.bytes).length := by
  induction gs with
  | nil => exact Nat.le_refl 0
  | cons g gs ih =>
    obtain ⟨fits, later⟩ := all
    have some := List.length_pos_iff.mpr (Segment.bytes_ne_nil fits)
    have rest := ih later
    simp only [List.length_cons, List.flatMap_cons, List.length_append]
    omega

theorem takeWhile_answersTo (offset : Nat) (gs : List Segment) (n : Nat) :
    (answersTo offset gs ++ List.replicate n (Except.ok Item.ended)).takeWhile goesOn =
      answersTo offset gs := by
  induction gs generalizing offset with
  | nil => cases n <;> rfl
  | cons g gs ih =>
    have on : goesOn (answerTo offset g) = true := by cases g <;> rfl
    simp [answersTo_cons, on, ih]

theorem answers_segments (h : s.Serves (gs.flatMap Segment.bytes)) (all : Segment.AllFit gs)
    (n : Nat) : (s.readings (gs.length + n)).map Prod.fst =
      answersTo s.offset gs ++ List.replicate n (.ok .ended) := by
  simp only [readings_segments h all n, List.map_append, List.map_replicate, answersTo]

theorem drain_segments (h : s.Serves (gs.flatMap Segment.bytes)) (all : Segment.AllFit gs) :
    s.drain = answersTo s.offset gs := by
  obtain ⟨n, enough⟩ := Nat.exists_eq_add_of_le
    (Nat.le_trans (length_le_bytes all) (length_le_size h))
  simp only [drain, enough, answers_segments h all n, takeWhile_answersTo]

theorem drain_ofDevice {v : List UInt8} (cut : Cut v) (whole : gs.flatMap Segment.bytes = v)
    (all : Segment.AllFit gs) : (ofDevice cut.device).drain = answersTo 0 gs := by
  subst whole
  exact drain_segments (serves_ofDevice cut) all

/-- Between any two reads the segments divide into those used up and those to come. -/
theorem behind_segments (h : s.Serves (gs.flatMap Segment.bytes)) (all : Segment.AllFit gs)
    (n : Nat) : ∃ front back, gs = front ++ back ∧ Segment.AllFit back ∧
      (s.behind n).Serves (back.flatMap Segment.bytes) ∧
      (s.behind n).offset = s.offset + (front.flatMap Segment.bytes).length := by
  induction n generalizing s gs with
  | zero => exact ⟨[], gs, rfl, all, h, rfl⟩
  | succ n ih =>
    cases gs with
    | nil =>
      obtain ⟨t, read, serves, offset⟩ := read_ended h
      have spent : t.Serves (List.flatMap Segment.bytes []) := serves
      obtain ⟨front, back, parts, rest, later, moved⟩ := ih spent trivial
      simp only [behind, read]
      exact ⟨front, back, parts, rest, later, by rw [moved, offset]⟩
    | cons g gs =>
      obtain ⟨fits, others⟩ := all
      obtain ⟨t, read, serves, offset⟩ := read_segment h fits
      obtain ⟨front, back, rfl, rest, later, moved⟩ := ih serves others
      simp only [behind, read]
      refine ⟨g :: front, back, rfl, rest, later, ?_⟩
      simp only [moved, offset, List.flatMap_cons, List.length_append, Nat.add_assoc]

/-- A read that fails uses up no byte that is a character by itself. -/
theorem failing_read_high (h : s.Serves (gs.flatMap Segment.bytes)) (all : Segment.AllFit gs)
    {f : Fault} (fails : s.read.1 = .error f) :
    ∀ b ∈ (gs.flatMap Segment.bytes).take (s.read.2.offset - s.offset), 0x80 ≤ b := by
  cases gs with
  | nil => simp
  | cons g gs =>
    obtain ⟨t, read, -, offset⟩ := read_segment h all.1
    rw [read] at fails ⊢
    cases g with
    | char c => contradiction
    | damaged bs =>
      simp only [offset, Nat.add_sub_cancel_left, List.flatMap_cons, List.take_left]
      exact Utf8.Damaged.high all.1

/-- A text among other bytes is drained as it is: what comes in front is answered as it is alone,
then the characters of the text, and then what comes behind as it is alone, but for the offsets of
its errors. Behind all this the input has ended for good, and no read that fails on the way uses up
a byte that is a character by itself. -/
theorem drain_around_text (front rest : List UInt8) (c : Char) (cs : List Char)
    (left : Cut front) (right : Cut rest)
    (whole : Cut (front ++ (c :: cs).flatMap Utf8.encode ++ rest)) :
    let s := ofDevice whole.device
    (∃ shifted, List.Forall₂ (Shifted (front ++ (c :: cs).flatMap Utf8.encode).length)
        (ofDevice right.device).drain shifted ∧
      s.drain = (ofDevice left.device).drain ++ (c :: cs).map (fun c => .ok (.char c)) ++
        shifted) ∧
    (∀ n, (s.readings (s.drain.length + n)).map Prod.fst =
      s.drain ++ List.replicate n (.ok .ended)) ∧
    ∀ n f, (s.behind n).read.1 = .error f →
      ∀ b ∈ ((front ++ (c :: cs).flatMap Utf8.encode ++ rest).drop (s.behind n).offset).take
        ((s.behind n).read.2.offset - (s.behind n).offset), 0x80 ≤ b := by
  intro s
  obtain ⟨gs, rfl, all⟩ := Utf8.exists_segments front
  obtain ⟨hs, rfl, all'⟩ := Utf8.exists_segments rest
  -- The text is cut into its characters, and neither side of it is cut differently than alone.
  have behindText := Segment.allFit_chars_append (c :: cs) all'
  have start : ∀ b, (((c :: cs).map Segment.char ++ hs).flatMap Segment.bytes).head? = some b →
      ¬ Utf8.Continues b := by
    simp only [List.map_cons, List.cons_append, List.flatMap_cons]
    exact Utf8.head_encode c _
  have fit := Segment.allFit_append all behindText start
  have bytes : (gs ++ ((c :: cs).map Segment.char ++ hs)).flatMap Segment.bytes =
      gs.flatMap Segment.bytes ++ (c :: cs).flatMap Utf8.encode ++ hs.flatMap Segment.bytes := by
    simp only [List.flatMap_append, Segment.bytes_chars, List.append_assoc]
  have serves : s.Serves ((gs ++ ((c :: cs).map Segment.char ++ hs)).flatMap Segment.bytes) := by
    rw [bytes]
    exact serves_ofDevice whole
  have drained := drain_segments serves fit
  refine ⟨⟨answersTo ((gs.flatMap Segment.bytes ++ (c :: cs).flatMap Utf8.encode).length + 0) hs,
    ?_, ?_⟩, ?_, ?_⟩
  · rw [drain_ofDevice right rfl all']
    exact shifted_answersTo _ 0 hs
  · have origin : (ofDevice whole.device).offset = 0 := rfl
    rw [drain_ofDevice left rfl all]
    simp only [s, drained, origin, answersTo_append, answersTo_chars, Segment.bytes_chars,
      List.length_append, List.append_assoc, Nat.zero_add, Nat.add_zero]
  · intro n
    have answers := answers_segments serves fit n
    simp only [s, drained, length_answersTo]
    exact answers
  · intro n f fails
    obtain ⟨used, back, parts, fit', later, offset⟩ := behind_segments serves fit n
    have gone : (s.behind n).offset = (used.flatMap Segment.bytes).length :=
      offset.trans (Nat.zero_add _)
    have ahead : (gs.flatMap Segment.bytes ++ (c :: cs).flatMap Utf8.encode ++
        hs.flatMap Segment.bytes).drop (s.behind n).offset = back.flatMap Segment.bytes := by
      rw [← bytes, parts, List.flatMap_append, gone, List.drop_left]
    rw [ahead]
    exact failing_read_high later fit' fails

end ByteSource
end EscapedText
