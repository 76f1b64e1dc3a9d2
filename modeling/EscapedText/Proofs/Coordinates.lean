import EscapedText.Position
import Mathlib.Data.List.DropRight

/-!
Where a text ends: on the line behind so many newlines, in the column behind the characters of that
line, at the offset of its UTF-8.
-/
namespace EscapedText

/-- What stands behind the last newline. -/
def lastLine (cs : List Char) : List Char := cs.rtakeWhile (· ≠ '\n')

theorem lastLine_newline (cs : List Char) : lastLine (cs ++ ['\n']) = [] :=
  List.rtakeWhile_concat_neg _ _ _ (by simp)

theorem lastLine_append {c : Char} (cs : List Char) (h : c ≠ '\n') :
    lastLine (cs ++ [c]) = lastLine cs ++ [c] :=
  List.rtakeWhile_concat_pos _ _ _ (by simpa using h)

namespace Position

theorem past_concat (p : Position) (cs : List Char) (c : Char) :
    p.past (cs ++ [c]) = (p.past cs).advance c :=
  past_append p cs [c]

theorem past_line (p : Position) (cs : List Char) :
    (p.past cs).line = p.line + cs.count '\n' := by
  induction cs using List.reverseRecOn with
  | nil => rfl
  | append_singleton cs c ih =>
    rw [past_concat, advance, List.count_append]
    split
    · rename_i newline
      simp [newline, ih, Nat.add_assoc]
    · rename_i other
      simp [ih, other]

theorem past_offset (p : Position) (cs : List Char) :
    (p.past cs).offset = p.offset + (String.ofList cs).utf8ByteSize := by
  induction cs using List.reverseRecOn with
  | nil => rfl
  | append_singleton cs c ih =>
    rw [past_concat, advance_offset, ih, String.ofList_append, String.utf8ByteSize_append,
      ← String.singleton_eq_ofList, String.utf8ByteSize_singleton, Nat.add_assoc]

theorem past_column (cs : List Char) : (start.past cs).column = 1 + (lastLine cs).length := by
  induction cs using List.reverseRecOn with
  | nil => rfl
  | append_singleton cs c ih =>
    rw [past_concat, advance]
    split
    · rename_i newline
      rw [newline, lastLine_newline]
      rfl
    · rename_i other
      rw [lastLine_append cs other, List.length_append, ← Nat.add_assoc, ← ih]
      rfl

/-- The place behind a text that is read from its start. -/
theorem past_start (cs : List Char) : start.past cs =
    ⟨1 + cs.count '\n', 1 + (lastLine cs).length, (String.ofList cs).utf8ByteSize⟩ := by
  have line : (start.past cs).line = 1 + cs.count '\n' := past_line start cs
  have offset : (start.past cs).offset = (String.ofList cs).utf8ByteSize := by
    rw [past_offset]
    exact Nat.zero_add _
  rw [← line, ← past_column, ← offset]

end Position
end EscapedText
