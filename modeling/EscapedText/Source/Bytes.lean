import EscapedText.Source
import EscapedText.Utf8

/-!
Bytes of UTF-8 as a source. A device serves reads of any size, may run dry for a while and may
fail; the source keeps what it has read and not used, and looks at the device again only when
nothing is left. A byte that cannot continue a sequence stays unread and opens the next one, so a
damaged stretch never swallows the text after it.
-/
namespace EscapedText

/-- What the device answers to one read. -/
inductive ReadStep where
  | bytes (bs : List UInt8)
  | dry
  | failed (f : Fault)
deriving DecidableEq

structure ByteSource where
  device : List ReadStep
  unread : List UInt8 := []
  offset : Nat := 0
  closed : Bool := false
deriving DecidableEq

/-- The most bytes that one read of the device can bring. -/
def ReadStep.limit : Nat := 8192

def ReadStep.size : ReadStep → Nat
  | .bytes bs => bs.length + 1
  | _ => 1

/-- Bounds the reads that a device still answers with something. -/
def ReadStep.total : List ReadStep → Nat
  | [] => 0
  | step :: rest => step.size + total rest

namespace ByteSource

def ofDevice (device : List ReadStep) : ByteSource := { device }

def invalid (lead : Nat) : Fault :=
  .device .invalidData s!"stream did not contain valid UTF-8 at byte {lead}"

def isClosed : Fault := .device .other "source is closed"

/-- Reads the device once if nothing is unread. What exceeds the limit stays with the device. -/
def fill (s : ByteSource) : Except Fault Unit × ByteSource :=
  match s.unread, s.device with
  | [], .bytes bs :: rest =>
    (.ok (), { s with
      device := if bs.length ≤ ReadStep.limit then rest
        else .bytes (bs.drop ReadStep.limit) :: rest
      unread := bs.take ReadStep.limit })
  | [], .dry :: rest => (.ok (), { s with device := rest })
  | [], .failed f :: rest => (.error f, { s with device := rest })
  | _, _ => (.ok (), s)

/-- Uses up the first unread byte. -/
def use (s : ByteSource) : ByteSource :=
  { s with unread := s.unread.tail, offset := s.offset + 1 }

/-- Reads `more` continuation bytes behind `seq`, the start of a sequence at `lead`. -/
def continued (lead : Nat) : Nat → List UInt8 → ByteSource → Except Fault Item × ByteSource
  | 0, seq, s =>
    match Utf8.decode? seq with
    | some c => (.ok (.char c), s)
    | none => (.error (invalid lead), s)
  | more + 1, seq, s =>
    match s.fill with
    | (.error f, s) => (.error f, s)
    | (.ok (), s) =>
      match s.unread.head? with
      | some byte =>
        if Utf8.isContinuation byte then continued lead more (seq ++ [byte]) s.use
        else (.error (invalid lead), s)
      | none => (.error (invalid lead), s)

def read (s : ByteSource) : Except Fault Item × ByteSource :=
  if s.closed then (.error isClosed, s)
  else
    match s.fill with
    | (.error f, t) => (.error f, t)
    | (.ok (), t) =>
      match t.unread.head? with
      | none => (.ok .ended, t)
      | some lead =>
        match Utf8.width lead with
        | 0 => (.error (invalid s.offset), t.use)
        | more + 1 => continued s.offset more [lead] t.use

def next (s : ByteSource) : Turn ByteSource (Except Fault Item) := ⟨s.read.1, s.read.2, #[]⟩

/-- Lets the device go with everything unread. -/
def close (s : ByteSource) : ByteSource := { s with device := [], unread := [], closed := true }

def size (s : ByteSource) : Nat := s.unread.length + ReadStep.total s.device

theorem size_fill_le (s : ByteSource) : s.fill.2.size ≤ s.size := by
  unfold fill
  split <;> simp_all [size, ReadStep.total, ReadStep.size]
  · split
    · simp_all [ReadStep.limit]
    · simp_all [ReadStep.total, ReadStep.size, ReadStep.limit]
      omega

theorem size_fill_lt {s : ByteSource} {f : Fault} (h : s.fill.1 = .error f) :
    s.fill.2.size < s.size := by
  unfold fill at h ⊢
  split at h <;> simp_all [size, ReadStep.total, ReadStep.size]

theorem size_use_le (s : ByteSource) : s.use.size ≤ s.size := by
  simp [use, size]

theorem size_use_lt {s : ByteSource} {b : UInt8} (h : s.unread.head? = some b) :
    s.use.size < s.size := by
  obtain ⟨bs, hs⟩ := List.head?_eq_some_iff.1 h
  simp [use, size, hs]

theorem size_continued_le (lead more : Nat) (seq : List UInt8) (s : ByteSource) :
    (continued lead more seq s).2.size ≤ s.size := by
  induction more generalizing seq s with
  | zero =>
    unfold continued
    split <;> exact Nat.le_refl _
  | succ more ih =>
    have hf := size_fill_le s
    unfold continued
    split
    · simp_all
    · rename_i t ht
      rw [ht] at hf
      split
      · split
        · exact Nat.le_trans (ih _ _) (Nat.le_trans (size_use_le t) hf)
        · exact hf
      · exact hf

theorem size_read_le (s : ByteSource) : s.read.2.size ≤ s.size := by
  have hf := size_fill_le s
  unfold read
  split
  · exact Nat.le_refl _
  · split
    · simp_all
    · rename_i t ht
      rw [ht] at hf
      split
      · exact hf
      · split
        · exact Nat.le_trans (size_use_le t) hf
        · exact Nat.le_trans (size_continued_le _ _ _ _) (Nat.le_trans (size_use_le t) hf)

theorem size_read_lt {s : ByteSource} (h : Advances s.read.1) : s.read.2.size < s.size := by
  have hf := size_fill_le s
  unfold read at h ⊢
  split
  · simp_all [Advances, isClosed, Fault.kind]
  · rename_i hc
    rw [if_neg hc] at h
    split
    · rename_i f t ht
      have hl := size_fill_lt (s := s) (f := f) (by rw [ht])
      rw [ht] at hl
      exact hl
    · rename_i t ht
      rw [ht] at hf
      split
      · rename_i hn
        simp only [ht, hn, Advances] at h
      · rename_i lead hn
        have hu := size_use_lt hn
        split
        · exact Nat.lt_of_lt_of_le hu hf
        · exact Nat.lt_of_le_of_lt (size_continued_le _ _ _ _) (Nat.lt_of_lt_of_le hu hf)

end ByteSource

instance : Source ByteSource where
  next _ s := s.next
  close s := ⟨.ok (), s.close, #[]⟩
  size := ByteSource.size
  size_next_le _ s := s.size_read_le
  size_next_lt _ _ h := ByteSource.size_read_lt h

end EscapedText
