import EscapedText.Proofs.Interruptions
import EscapedText.Proofs.Slices
import EscapedText.Proofs.Surroundings
import EscapedText.Proofs.TextReading

/-!
Clones of a source over a text, in bytes. They share one buffer, and each has a cursor, which is the
number of bytes it has passed. Nothing keeps such a number from a place amid a character, where the
buffer cannot be cut, but the reads themselves. Here every cut is checked, as a machine would do it,
and clones are read and made in any order. No cursor ever strays, and each clone goes on as a source
of its own, from what it was made of, whatever is done to the others.
-/
namespace EscapedText

namespace Utf8

/-- Behind the first `n` bytes a character begins, or there is nothing. -/
def isBoundary (bytes : List UInt8) (n : Nat) : Bool :=
  match bytes[n]? with
  | some b => !isContinuation b
  | none => n == bytes.length

theorem isBoundary_length_add (front rest : List UInt8) (n : Nat) :
    isBoundary (front ++ rest) (front.length + n) = isBoundary rest n := by
  have same : (front ++ rest)[front.length + n]? = rest[n]? := by
    rw [List.getElem?_append_right (Nat.le_add_right _ _), Nat.add_sub_cancel_left]
  rw [isBoundary, isBoundary, same, List.length_append]
  cases rest[n]? with
  | some b => rfl
  | none => simp

theorem isBoundary_zero (cs : List Char) : isBoundary (cs.flatMap encode) 0 = true := by
  cases cs with
  | nil => rfl
  | cons c cs =>
    have start := head_encode c (cs.flatMap encode)
    rw [List.flatMap_cons, isBoundary, ← List.head?_eq_getElem?]
    cases head : (encode c ++ cs.flatMap encode).head? with
    | none => exact absurd (List.head?_eq_none_iff.mp head) (by simp)
    | some b =>
      have other : ¬ isContinuation b = true := mt isContinuation_iff.mp (start b head)
      simp [other]

theorem isBoundary_amid (c : Char) (rest : List UInt8) {n : Nat} (some : 0 < n)
    (amid : n < (encode c).length) : isBoundary (encode c ++ rest) n = false := by
  rcases encode_shape c with ⟨a, one, -⟩ | ⟨lead, tail, more, several, -, all, -⟩
  · rw [one] at amid
    exact absurd amid (Nat.not_lt_of_le some)
  · obtain ⟨m, rfl⟩ := Nat.exists_eq_succ_of_ne_zero (Nat.ne_of_gt some)
    rw [several] at amid ⊢
    have less : m < tail.length := Nat.lt_of_succ_lt_succ amid
    have byte : (lead :: tail ++ rest)[m + 1]? = Option.some tail[m] := by
      rw [List.cons_append, List.getElem?_cons_succ, List.getElem?_append_left less,
        List.getElem?_eq_getElem less]
    have continues := isContinuation_iff.mpr (all tail[m] (List.getElem_mem less))
    rw [isBoundary, byte]
    simp [continues]

/-- The boundaries in the bytes of a text are the places behind some of its characters. -/
theorem isBoundary_iff {cs : List Char} {n : Nat} : isBoundary (cs.flatMap encode) n = true ↔
    ∃ front rest, cs = front ++ rest ∧ n = (front.flatMap encode).length := by
  constructor
  · intro h
    induction cs generalizing n with
    | nil =>
      have zero : n = 0 := by simpa [isBoundary] using h
      exact ⟨[], [], rfl, zero⟩
    | cons c cs ih =>
      rw [List.flatMap_cons] at h
      by_cases zero : n = 0
      · exact ⟨[], c :: cs, rfl, zero⟩
      · by_cases amid : n < (encode c).length
        · rw [isBoundary_amid c _ (Nat.pos_of_ne_zero zero) amid] at h
          cases h
        · obtain ⟨m, rfl⟩ := Nat.exists_eq_add_of_le (Nat.le_of_not_lt amid)
          rw [isBoundary_length_add] at h
          obtain ⟨front, rest, rfl, rfl⟩ := ih h
          refine ⟨c :: front, rest, rfl, ?_⟩
          rw [List.flatMap_cons, List.length_append]
  · rintro ⟨front, rest, rfl, rfl⟩
    rw [List.flatMap_append]
    exact (isBoundary_length_add _ _ 0).trans (isBoundary_zero rest)

theorem length_text (t : String) : (t.toList.flatMap encode).length = t.utf8ByteSize := by
  rw [← String.size_toByteArray, ← String.utf8Encode_toList]
  exact (List.size_toByteArray).symm

end Utf8

/-! Cursors. -/

namespace Cursor

/-- The bytes from the cursor on. The buffer can be cut on a boundary only. -/
def remaining? (buffer : List UInt8) (n : Nat) : Option (List UInt8) :=
  if Utf8.isBoundary buffer n then slice? buffer n buffer.length else none

def atEnd (buffer : List UInt8) (n : Nat) : Bool := buffer.length ≤ n

/-- What the bytes of a text begin with. Others may begin with nothing. -/
def first? : List UInt8 → Option Item
  | [] => some .ended
  | lead :: rest => (Utf8.decode? ((lead :: rest).take (Utf8.width lead))).map .char

def past (n : Nat) : Item → Nat
  | .char c => n + c.utf8Size
  | .ended => n

/-- The answer to a read, and where the cursor is then. There is none if the cursor has strayed. -/
def read? (buffer : List UInt8) (n : Nat) : Option (Item × Nat) :=
  match remaining? buffer n with
  | none => none
  | some rest => (first? rest).map fun item => (item, past n item)

theorem remaining?_eq (front rest : List Char) :
    remaining? ((front ++ rest).flatMap Utf8.encode) (front.flatMap Utf8.encode).length =
      some (rest.flatMap Utf8.encode) := by
  have boundary := Utf8.isBoundary_iff.mpr ⟨front, rest, rfl, rfl⟩
  have range : (front.flatMap Utf8.encode).length ≤
      ((front ++ rest).flatMap Utf8.encode).length := by
    rw [List.flatMap_append, List.length_append]
    exact Nat.le_add_right _ _
  rw [remaining?, if_pos boundary, slice?_eq range (Nat.le_refl _), List.take_length,
    List.flatMap_append, List.drop_left]

theorem first?_eq (cs : List Char) : first? (cs.flatMap Utf8.encode) = some (Item.first cs) := by
  cases cs with
  | nil => rfl
  | cons c cs =>
    obtain ⟨lead, tail, bytes⟩ := List.exists_cons_of_ne_nil (Utf8.encode_ne_nil c)
    have front : (lead :: (tail ++ cs.flatMap Utf8.encode)).take (Utf8.width lead) =
        Utf8.encode c := by
      rw [Utf8.width_of_encode bytes, List.take_succ_cons, List.take_left, bytes]
    rw [List.flatMap_cons, bytes, List.cons_append, first?, front, Utf8.decode?_encode]
    rfl

end Cursor

namespace TextSource

/-- The characters in front of the cursor. -/
def passed (s : TextSource) : List Char := (s.text.sliceTo s.cursor).copy.toList

def bytes (s : TextSource) : List UInt8 := s.text.toList.flatMap Utf8.encode

theorem text_eq (s : TextSource) : s.text.toList = s.passed ++ s.unread := by
  rw [passed, unread, ← String.toList_append]
  exact congrArg String.toList s.splits_remaining.eq_append

theorem offset_eq (s : TextSource) : s.offset = (s.passed.flatMap Utf8.encode).length := by
  rw [passed, Utf8.length_text]
  exact offset_of_splits s.splits_remaining

/-- A cursor in the bytes of a text tells what the source does. -/
structure Mirrors (s : TextSource) (buffer : List UInt8) (n : Nat) : Prop where
  offset : s.offset = n
  range : n ≤ buffer.length
  boundary : Utf8.isBoundary buffer n = true
  remaining : Cursor.remaining? buffer n = some (s.remaining.toList.flatMap Utf8.encode)
  atEnd : Cursor.atEnd buffer n = s.atEnd
  read : ∃ item, Cursor.read? buffer n = some (item, s.next.state.offset) ∧
    s.next.answer = .ok item

theorem next_answer (s : TextSource) : s.next.answer = .ok (Item.first s.unread) := by
  cases ahead : s.unread with
  | nil => rw [next_of_unread_nil ahead, Item.first]
  | cons c v =>
    obtain ⟨u, turn, -, -⟩ := next_of_unread_cons ahead
    rw [turn, Item.first]

theorem next_offset (s : TextSource) :
    s.next.state.offset = Cursor.past s.offset (Item.first s.unread) := by
  cases ahead : s.unread with
  | nil => rw [next_of_unread_nil ahead, Item.first, Cursor.past]
  | cons c v => rw [offset_next ahead, Item.first, Cursor.past]

theorem next_text (s : TextSource) : s.next.state.text = s.text := by
  cases ahead : s.unread with
  | nil => rw [next_of_unread_nil ahead]
  | cons c v =>
    obtain ⟨u, turn, same, -⟩ := next_of_unread_cons ahead
    rw [turn, same]

theorem next_unread (s : TextSource) : s.next.state.unread = s.unread.tail := by
  cases ahead : s.unread with
  | nil => rw [next_of_unread_nil ahead, ahead, List.tail_nil]
  | cons c v =>
    obtain ⟨u, turn, -, rest⟩ := next_of_unread_cons ahead
    rw [turn, rest, List.tail_cons]

theorem atEnd_iff (s : TextSource) : s.atEnd = true ↔ s.unread = [] := by
  have ends := String.Pos.Splits.eq_endPos_iff s.splits_remaining
  rw [unread, String.toList_eq_nil_iff, ← ends, atEnd, decide_eq_true_iff]

theorem mirrors (s : TextSource) : Mirrors s s.bytes s.offset := by
  have remaining := Cursor.remaining?_eq s.passed s.unread
  rw [← text_eq, ← offset_eq] at remaining
  have total : s.bytes.length = s.offset + (s.unread.flatMap Utf8.encode).length := by
    rw [bytes, text_eq, List.flatMap_append, List.length_append, offset_eq]
  refine ⟨rfl, ?_, ?_, remaining, ?_, _, ?_, s.next_answer⟩
  · rw [total]
    exact Nat.le_add_right _ _
  · exact Utf8.isBoundary_iff.mpr ⟨s.passed, s.unread, s.text_eq, s.offset_eq⟩
  · rw [Bool.eq_iff_iff, atEnd_iff, Cursor.atEnd, decide_eq_true_iff, total]
    cases ahead : s.unread with
    | nil => simp
    | cons c v =>
      have some := List.length_pos_iff.mpr (Utf8.encode_ne_nil c)
      simp only [List.flatMap_cons, List.length_append, reduceCtorEq, iff_false]
      omega
  · rw [Cursor.read?, bytes, remaining, next_offset]
    dsimp only
    rw [Cursor.first?_eq]
    rfl

/-- The answers to so many reads, and the source behind them. -/
def reads (s : TextSource) : Nat → List (Except Fault Item) × TextSource
  | 0 => ([], s)
  | k + 1 =>
    let before := s.reads k
    (before.1 ++ [before.2.next.answer], before.2.next.state)

/-- What `k` reads are answered with `cs` to come. Behind the characters there is the end for
good. -/
def given (cs : List Char) (k : Nat) : List Item :=
  (cs.take k).map .char ++ List.replicate (k - cs.length) .ended

theorem given_succ (cs : List Char) (k : Nat) :
    given cs (k + 1) = given cs k ++ [Item.first (cs.drop k)] := by
  rcases Nat.lt_or_ge k cs.length with amid | past
  · have none : k - cs.length = 0 ∧ k + 1 - cs.length = 0 := by omega
    rw [given, given, none.1, none.2, List.drop_eq_getElem_cons amid,
      List.take_succ_eq_append_getElem amid, List.map_append, List.replicate_zero, List.append_nil,
      List.append_nil]
    rfl
  · have more : k + 1 - cs.length = k - cs.length + 1 := Nat.succ_sub past
    rw [given, given, more, List.take_of_length_le past,
      List.take_of_length_le (Nat.le_succ_of_le past), List.drop_of_length_le past,
      List.replicate_succ', ← List.append_assoc]
    rfl

theorem reads_behind (s : TextSource) (k : Nat) :
    (s.reads k).2.text = s.text ∧ (s.reads k).2.unread = s.unread.drop k ∧
      (s.reads k).1 = (given s.unread k).map .ok := by
  induction k with
  | zero => exact ⟨rfl, rfl, by simp [reads, given]⟩
  | succ k ih =>
    obtain ⟨text, unread, answers⟩ := ih
    refine ⟨(next_text _).trans text, ?_, ?_⟩
    · rw [reads, next_unread, unread, List.tail_drop]
    · rw [reads, next_answer, unread, answers, given_succ, List.map_append]
      rfl

theorem reads_add (s : TextSource) (k m : Nat) : s.reads (k + m) =
    ((s.reads k).1 ++ ((s.reads k).2.reads m).1, ((s.reads k).2.reads m).2) := by
  induction m with
  | zero => simp [reads]
  | succ m ih =>
    rw [← Nat.add_assoc, reads, ih]
    simp [reads]

theorem chars_given (cs : List Char) (k : Nat) : (given cs k).flatMap Item.chars = cs.take k := by
  have ends : (List.replicate (k - cs.length) Item.ended).flatMap Item.chars = [] := by
    simp [Item.chars]
  have chars : ((cs.take k).map Item.char).flatMap Item.chars = cs.take k := by
    rw [List.flatMap_map]
    exact List.flatMap_singleton' _
  rw [given, List.flatMap_append, ends, chars, List.append_nil]

theorem passed_reads (text : String) (k : Nat) :
    ((ofText text).reads k).2.passed = text.toList.take k := by
  obtain ⟨same, rest, -⟩ := (ofText text).reads_behind k
  have parts := text_eq ((ofText text).reads k).2
  rw [same, rest, unread_ofText] at parts
  have whole : text.toList.take k ++ text.toList.drop k = text.toList := List.take_append_drop _ _
  exact (List.append_cancel_right (whole.trans parts)).symm

end TextSource

/-! Clones. -/

/-- What happens among clones. -/
inductive Clones.Entry where
  | answered (i : Nat) (item : Item)
  | cloned (i new : Nat)

/-- A source over a text and its clones. The one buffer is for all of them, and each has a cursor of
its own. They go by number, in the order in which they were made. -/
structure Clones where
  buffer : List UInt8
  cursors : List Nat
  log : List Clones.Entry := []

namespace Clones

def ofText (text : String) : Clones := { buffer := text.toList.flatMap Utf8.encode, cursors := [0] }

/-- What is done to clone `i`. -/
inductive Act where
  | read (i : Nat)
  | clone (i : Nat)
deriving DecidableEq

/-- Does what is to be done, and nothing if there is no such clone. There is no state after a read
that strays. -/
def act? (c : Clones) : Act → Option Clones
  | .read i =>
    match c.cursors[i]? with
    | none => some c
    | some n =>
      match Cursor.read? c.buffer n with
      | none => none
      | some (item, n') =>
        some { c with cursors := c.cursors.set i n', log := .answered i item :: c.log }
  | .clone i =>
    match c.cursors[i]? with
    | none => some c
    | some n =>
      some { c with cursors := c.cursors ++ [n], log := .cloned i c.cursors.length :: c.log }

def run? (c : Clones) (acts : List Act) : Option Clones := acts.foldlM act? c

/-- All answers to clone `i`, those to what it was made of included, up to then. -/
def heard : List Entry → Nat → List Item
  | [], _ => []
  | .answered j item :: before, i => if i = j then heard before i ++ [item] else heard before i
  | .cloned j new :: before, i => heard before (if i = new then j else i)

def delivered (log : List Entry) (i : Nat) : List Char := (heard log i).flatMap Item.chars

/-- `s` has given the answers, alone, and is where the cursor is. -/
structure Own (text : String) (items : List Item) (n : Nat) (s : TextSource) : Prop where
  reads : (TextSource.ofText text).reads items.length = (items.map .ok, s)
  offset : s.offset = n

variable {text : String} {items : List Item} {i n : Nat} {s : TextSource} {c c' c'' : Clones}
  {acts acts' : List Act}

theorem Own.text_eq (h : Own text items n s) : s.text = text := by
  have same := ((TextSource.ofText text).reads_behind items.length).1
  rw [h.reads] at same
  exact same

theorem Own.next (h : Own text items n s) :
    ∃ item n', Cursor.read? (text.toList.flatMap Utf8.encode) n = some (item, n') ∧
      Own text (items ++ [item]) n' s.next.state := by
  obtain ⟨item, read, answer⟩ := s.mirrors.read
  rw [TextSource.bytes, h.text_eq, h.offset] at read
  refine ⟨item, _, read, ?_, rfl⟩
  rw [List.length_append, List.length_singleton, TextSource.reads, h.reads, answer, List.map_append]
  rfl

/-- Each clone is where it would be if it were alone. -/
structure Sound (text : String) (c : Clones) : Prop where
  buffer : c.buffer = text.toList.flatMap Utf8.encode
  own : ∀ i n, c.cursors[i]? = some n → ∃ s, Own text (heard c.log i) n s

/-- The clones there were have heard one answer for each of their own reads. -/
structure Grown (acts : List Act) (c c' : Clones) : Prop where
  more : c.cursors.length ≤ c'.cursors.length
  heard : ∀ i < c.cursors.length,
    (heard c'.log i).length = (heard c.log i).length + acts.count (.read i)

theorem sound_ofText (text : String) : Sound text (ofText text) := by
  refine ⟨rfl, ?_⟩
  intro i n cursor
  cases i with
  | zero =>
    cases cursor
    exact ⟨TextSource.ofText text, rfl, rfl⟩
  | succ i => cases cursor

theorem grown_nil (c : Clones) : Grown [] c c := ⟨Nat.le_refl _, fun _ _ => rfl⟩

theorem Grown.append (first : Grown acts c c') (later : Grown acts' c' c'') :
    Grown (acts ++ acts') c c'' := by
  refine ⟨Nat.le_trans first.more later.more, ?_⟩
  intro i there
  rw [later.heard i (Nat.lt_of_lt_of_le there first.more), first.heard i there, List.count_append,
    Nat.add_assoc]

theorem sound_read (h : Sound text c) (cursor : c.cursors[i]? = some n) :
    ∃ c', c.act? (.read i) = some c' ∧ Sound text c' ∧ Grown [.read i] c c' := by
  obtain ⟨s, own⟩ := h.own i n cursor
  obtain ⟨item, n', read, own'⟩ := own.next
  rw [← h.buffer] at read
  refine ⟨{ c with cursors := c.cursors.set i n', log := .answered i item :: c.log }, ?_,
    ⟨h.buffer, ?_⟩, ?_, ?_⟩
  · simp only [act?, cursor, read]
  · -- The clone that was read has moved on, and the others are where they were.
    intro j m there
    rw [List.getElem?_set] at there
    by_cases same : i = j
    · subst same
      have inside := (List.getElem?_eq_some_iff.mp cursor).1
      rw [if_pos rfl, if_pos inside] at there
      cases there
      rw [heard, if_pos rfl]
      exact ⟨_, own'⟩
    · rw [if_neg same] at there
      rw [heard, if_neg (Ne.symm same)]
      exact h.own j m there
  · exact Nat.le_of_eq List.length_set.symm
  · intro j _
    by_cases same : j = i
    · subst same
      simp [heard]
    · simp [heard, same, Ne.symm same]

theorem act?_clone (cursor : c.cursors[i]? = some n) : c.act? (.clone i) =
    some { c with cursors := c.cursors ++ [n], log := .cloned i c.cursors.length :: c.log } := by
  simp only [act?, cursor]

theorem sound_clone (h : Sound text c) (cursor : c.cursors[i]? = some n) :
    ∃ c', c.act? (.clone i) = some c' ∧ Sound text c' ∧ Grown [.clone i] c c' := by
  refine ⟨_, act?_clone cursor, ⟨h.buffer, ?_⟩, ?_, ?_⟩
  · -- The new clone has heard what the one it was made of had heard by then.
    intro j m there
    by_cases new : j = c.cursors.length
    · subst new
      rw [List.getElem?_concat_length] at there
      cases there
      rw [heard, if_pos rfl]
      exact h.own i n cursor
    · have inside := (List.getElem?_eq_some_iff.mp there).1
      rw [List.length_append, List.length_singleton] at inside
      have old : j < c.cursors.length := by omega
      rw [List.getElem?_append_left old] at there
      rw [heard, if_neg new]
      exact h.own j m there
  · rw [List.length_append]
    exact Nat.le_add_right _ _
  · intro j old
    rw [heard, if_neg (Nat.ne_of_lt old)]
    simp

/-- What is done where there is no clone does not count for any. -/
theorem grown_absent (absent : c.cursors[i]? = none) :
    Grown [.read i] c c ∧ Grown [.clone i] c c := by
  have beyond := List.getElem?_eq_none_iff.mp absent
  refine ⟨⟨Nat.le_refl _, ?_⟩, Nat.le_refl _, fun _ _ => rfl⟩
  intro j there
  have other : i ≠ j := by omega
  simp [other]

theorem sound_act (h : Sound text c) (a : Act) :
    ∃ c', c.act? a = some c' ∧ Sound text c' ∧ Grown [a] c c' := by
  cases a with
  | read i =>
    cases cursor : c.cursors[i]? with
    | none => exact ⟨c, by simp only [act?, cursor], h, (grown_absent cursor).1⟩
    | some n => exact sound_read h cursor
  | clone i =>
    cases cursor : c.cursors[i]? with
    | none => exact ⟨c, by simp only [act?, cursor], h, (grown_absent cursor).2⟩
    | some n => exact sound_clone h cursor

theorem sound_run (h : Sound text c) (acts : List Act) :
    ∃ c', c.run? acts = some c' ∧ Sound text c' ∧ Grown acts c c' := by
  induction acts generalizing c with
  | nil => exact ⟨c, rfl, h, grown_nil c⟩
  | cons a acts ih =>
    obtain ⟨c', act, sound, first⟩ := sound_act h a
    obtain ⟨c'', run, sound', later⟩ := ih sound
    refine ⟨c'', ?_, sound', first.append later⟩
    rw [run?, List.foldlM_cons, act]
    exact run

/-- Clone `i`, at `n`, is on a boundary, between what it has delivered and what it is still to
deliver. That does not hang on what is done to the others: `s` is a source that has been read as
often, alone, and is as far. -/
structure Stands (text : String) (c : Clones) (i n : Nat) (s : TextSource) : Prop where
  mirrors : s.Mirrors c.buffer n
  own : (TextSource.ofText text).reads (heard c.log i).length = ((heard c.log i).map .ok, s)
  before : c.buffer.take n = (delivered c.log i).flatMap Utf8.encode
  parts : text = String.ofList (delivered c.log i) ++ s.remaining
  ended : Cursor.atEnd c.buffer n = true ↔ s.remaining = ""
  cloned : ∃ c', c.act? (.clone i) = some c' ∧ c'.cursors[c.cursors.length]? = some n ∧
    heard c'.log c.cursors.length = heard c.log i
  later : ∀ acts, ∃ c', c.run? acts = some c' ∧ c'.buffer = c.buffer ∧
    c'.cursors[i]? = some (s.reads (acts.count (.read i))).2.offset ∧
    heard c'.log i = heard c.log i ++ TextSource.given s.remaining.toList (acts.count (.read i))

theorem items_eq {items' : List Item}
    (h : (items.map .ok : List (Except Fault Item)) = items'.map .ok) : items = items' :=
  List.map_injective_iff.mpr (fun _ _ => Except.ok.inj) h

theorem Own.given (h : Own text items n s) :
    items = TextSource.given text.toList items.length := by
  have answers := ((TextSource.ofText text).reads_behind items.length).2.2
  rw [h.reads, TextSource.unread_ofText] at answers
  exact items_eq answers

theorem Own.passed (h : Own text items n s) : s.passed = items.flatMap Item.chars := by
  have front := TextSource.passed_reads text items.length
  rw [h.reads] at front
  rw [front, ← TextSource.chars_given, ← h.given]

/-- Behind more reads of its own. -/
theorem Own.reads_on {items' : List Item} {n' : Nat} {s' : TextSource} (h : Own text items n s)
    (h' : Own text items' n' s') {k : Nat} (more : items'.length = items.length + k) :
    items' = items ++ TextSource.given s.unread k ∧ s' = (s.reads k).2 := by
  have both := (TextSource.ofText text).reads_add items.length k
  rw [← more, h.reads, h'.reads, (s.reads_behind k).2.2, ← List.map_append] at both
  obtain ⟨answers, same⟩ := Prod.mk.inj both
  exact ⟨items_eq answers, same⟩

theorem stands_of_sound (h : Sound text c) (cursor : c.cursors[i]? = some n) :
    ∃ s, Stands text c i n s := by
  obtain ⟨s, own⟩ := h.own i n cursor
  have buffer : c.buffer = s.bytes := by rw [h.buffer, TextSource.bytes, own.text_eq]
  have mirrors := s.mirrors
  rw [← buffer, own.offset] at mirrors
  have inside := (List.getElem?_eq_some_iff.mp cursor).1
  refine ⟨s, mirrors, own.reads, ?_, ?_, ?_, ?_, ?_⟩
  · rw [buffer, TextSource.bytes, TextSource.text_eq, List.flatMap_append, ← own.offset,
      TextSource.offset_eq, List.take_left, own.passed, delivered]
  · rw [delivered, ← own.passed, TextSource.passed, String.ofList_toList, ← own.text_eq]
    exact s.splits_remaining.eq_append
  · rw [mirrors.atEnd, TextSource.atEnd_iff, TextSource.unread, String.toList_eq_nil_iff]
  · refine ⟨_, act?_clone cursor, List.getElem?_concat_length, ?_⟩
    rw [heard, if_pos rfl]
  · -- A source alone is known by its number of reads, and only those of the clone count for it.
    intro acts
    obtain ⟨c', run, sound, grown⟩ := sound_run h acts
    have there := Nat.lt_of_lt_of_le inside grown.more
    have cursor' := List.getElem?_eq_getElem there
    obtain ⟨s', own'⟩ := sound.own i _ cursor'
    obtain ⟨items, rfl⟩ := own.reads_on own' (grown.heard i inside)
    refine ⟨c', run, sound.buffer.trans h.buffer.symm, ?_, items⟩
    rw [cursor', own'.offset]

/-- Let a source over a text and its clones be read and cloned in any order. No read strays, the
buffer stays the text, and each clone is on a boundary, where it goes on as if it were alone. -/
theorem keeps_to_boundaries (text : String) (acts : List Act) :
    ∃ c, (ofText text).run? acts = some c ∧ c.buffer = text.toList.flatMap Utf8.encode ∧
      ∀ i n, c.cursors[i]? = some n → ∃ s, Stands text c i n s := by
  obtain ⟨c, run, sound, -⟩ := sound_run (sound_ofText text) acts
  exact ⟨c, run, sound.buffer, fun i n cursor => stands_of_sound sound cursor⟩

/-- Amid the second character there is no boundary. The source is past it, and its clone in front. -/
theorem accented_keeps_to_boundaries :
    ∃ c, (ofText "né!").run? [.read 0, .clone 0, .read 0] = some c ∧
      c.cursors = [3, 1] ∧ delivered c.log 0 = ['n', 'é'] ∧ delivered c.log 1 = ['n'] ∧
      (∃ s, Stands "né!" c 0 3 s) ∧ ∃ s, Stands "né!" c 1 1 s := by
  obtain ⟨c, run, -, stands⟩ := keeps_to_boundaries "né!" [.read 0, .clone 0, .read 0]
  have same : some c = some (Clones.mk [110, 195, 169, 33] [3, 1]
      [.answered 0 (.char 'é'), .cloned 0 1, .answered 0 (.char 'n')]) := run.symm.trans rfl
  obtain rfl := Option.some.inj same
  exact ⟨_, run, rfl, rfl, rfl, stands 0 3 rfl, stands 1 1 rfl⟩

end Clones
end EscapedText
