import EscapedText.Source

/-!
A source that answers what it was told, entry by entry, and then ends for good. It counts how
often it was closed and goes on answering afterwards.
-/
namespace EscapedText

structure Script where
  entries : List (Except Fault Item)
  closes : Nat := 0
  closeFault : Option Fault := none

namespace Script

def next (s : Script) : Turn Script (Except Fault Item) :=
  match s.entries with
  | [] => ⟨.ok .ended, s, #[]⟩
  | e :: es => ⟨e, { s with entries := es }, #[]⟩

def close (s : Script) : Turn Script (Except Fault Unit) :=
  ⟨match s.closeFault with
    | none => .ok ()
    | some f => .error f,
   { s with closes := s.closes + 1 }, #[]⟩

end Script

instance : Source Script where
  next _ s := s.next
  close := Script.close
  size s := s.entries.length
  size_next_le _ s := by
    unfold Script.next
    split <;> simp_all
  size_next_lt _ s h := by
    unfold Script.next at h ⊢
    split at h <;> simp_all [Advances]

end EscapedText
