import EscapedText.Source

/-!
A text in memory as a source. The cursor is a character boundary of the text by its type, so the
text splits at it into what was answered and what is still to come.
-/
namespace EscapedText

structure TextSource where
  text : String
  cursor : text.Pos

namespace TextSource

def ofText (t : String) : TextSource := ⟨t, t.startPos⟩

/-- Bytes of the text before the cursor. -/
def offset (s : TextSource) : Nat := s.cursor.offset.byteIdx

def atEnd (s : TextSource) : Bool := s.cursor = s.text.endPos

/-- The text after the cursor. -/
def remaining (s : TextSource) : String := (s.text.sliceFrom s.cursor).copy

def next (s : TextSource) : Turn TextSource (Except Fault Item) :=
  if h : s.cursor = s.text.endPos then ⟨.ok .ended, s, #[]⟩
  else ⟨.ok (.char (s.cursor.get h)), ⟨s.text, s.cursor.next h⟩, #[]⟩

def size (s : TextSource) : Nat := s.cursor.remainingBytes

/-- `s` has answered `read` and will answer `rest`. -/
def Splits (s : TextSource) (read rest : String) : Prop := s.cursor.Splits read rest

theorem splits_ofText (t : String) : (ofText t).Splits "" t := t.splits_startPos

theorem next_of_ne {s : TextSource} (h : s.cursor ≠ s.text.endPos) :
    s.next = ⟨.ok (.char (s.cursor.get h)), ⟨s.text, s.cursor.next h⟩, #[]⟩ := by
  simp [next, h]

theorem next_of_splits_end {s : TextSource} {read : String} (h : s.Splits read "") :
    s.next = ⟨.ok .ended, s, #[]⟩ := by
  have e : s.cursor = s.text.endPos := (String.Pos.Splits.eq_endPos_iff h).2 rfl
  simp [next, e]

theorem next_of_splits {s : TextSource} {read rest : String} {c : Char}
    (h : s.Splits read (String.singleton c ++ rest)) :
    ∃ s', s.next = ⟨.ok (.char c), s', #[]⟩ ∧ s'.text = s.text ∧
      s'.Splits (read ++ String.singleton c) rest := by
  have e := String.Pos.Splits.ne_endPos_of_singleton h
  refine ⟨⟨s.text, s.cursor.next e⟩, ?_, rfl, String.Pos.Splits.next h⟩
  have hs : (s.cursor.next e).Splits (read ++ String.singleton c) rest := String.Pos.Splits.next h
  rw [next_of_ne e, hs.get_eq_of_singleton]

theorem size_next_lt_of_ne {s : TextSource} (h : s.cursor ≠ s.text.endPos) :
    s.next.state.size < s.size := by
  rw [next_of_ne h]
  have hlt : s.cursor < s.cursor.next h := String.Pos.lt_next
  exact (String.Pos.lt_iff_remainingBytes_lt _ _).1 hlt

end TextSource

instance : Source TextSource where
  next _ s := s.next
  close s := ⟨.ok (), s, #[]⟩
  size := TextSource.size
  size_next_le _ s := by
    by_cases h : s.cursor = s.text.endPos
    · simp [TextSource.next, h]
    · exact Nat.le_of_lt (TextSource.size_next_lt_of_ne h)
  size_next_lt _ s h := by
    by_cases e : s.cursor = s.text.endPos
    · simp [TextSource.next, e, Advances] at h
    · exact TextSource.size_next_lt_of_ne e

end EscapedText
