import EscapedText.Proofs.ByteDelivery
import EscapedText.Source.Script

/-!
A view of bytes in its cells. The last character taken lies in the front of four cells, and a slice
of them is still to be delivered. A read copies slices into its buffer, one with every pass, until
it leaves. Here each slice is checked against the ends of what it is taken from, as a machine would
do it. No pass ever strays out of range, each brings a byte or leaves, and what a read comes to is
what the view reads.
-/
namespace EscapedText

/-- The bytes from `a` up to `b`, if that is a slice. -/
def slice? (bytes : List UInt8) (a b : Nat) : Option (List UInt8) :=
  if a ≤ b ∧ b ≤ bytes.length then some ((bytes.take b).drop a) else none

/-- Overwrites the slice from `a` up to `b` by `bytes`, if it is one and has their length. -/
def splice? (buffer : List UInt8) (a b : Nat) (bytes : List UInt8) : Option (List UInt8) :=
  match slice? buffer a b with
  | none => none
  | some old =>
    if bytes.length = old.length then some (buffer.take a ++ bytes ++ buffer.drop b) else none

/-- The cells from `start` up to `stop` are to be delivered. They are what is left of the character
taken last. Nothing asks for that one: it is kept so that it can be spoken of. -/
structure Cells (σ : Type) where
  translator : Translator σ
  cells : Vector UInt8 4 := .replicate 4 0
  start : Nat := 0
  stop : Nat := 0
  deferred : Option Failure := none
  last : Option Char := none

/-- A read on its way. -/
structure Loop (σ : Type) where
  cells : Cells σ
  buffer : List UInt8
  written : Nat := 0
  events : Array Event := #[]

/-- So many bytes from the cell `start` on went to the place `written` of the buffer. -/
structure Copy where
  start : Nat
  written : Nat
  count : Nat
deriving DecidableEq

/-- Bytes in all. -/
def Copy.total : List Copy → Nat
  | [] => 0
  | copy :: copies => copy.count + total copies

inductive Pass (σ : Type) where
  | copied (copy : Copy) (after : Loop σ)
  | left (answer : Except Fault Nat) (after : Loop σ)
  | strayed

variable {σ : Type}

namespace Cells

def ofTranslator (translator : Translator σ) : Cells σ := { translator }

theorem size_over (cells : Vector UInt8 4) (c : Char) :
    (Utf8.encode c ++ cells.toList.drop (Utf8.encode c).length).toArray.size = 4 := by
  have few := ByteView.length_encode_le c
  rw [List.size_toArray, List.length_append, List.length_drop, Vector.length_toList]
  exact Nat.add_sub_cancel' few

/-- Takes `c`, over the front of the cells. -/
def put (v : Cells σ) (c : Char) : Cells σ :=
  { v with
    cells := ⟨_, size_over v.cells c⟩
    start := 0
    stop := (Utf8.encode c).length
    last := some c }

/-- The view that the cells are of. -/
def view (v : Cells σ) : ByteView σ :=
  { translator := v.translator
    encoded := v.cells.toList.take v.stop
    start := v.start
    deferred := v.deferred }

end Cells

namespace Loop

/-- Copies as much as there is and fits. No difference may be negative. -/
def copy (c : Loop σ) : Pass σ :=
  if c.cells.start ≤ c.cells.stop ∧ c.written ≤ c.buffer.length then
    let n := min (c.cells.stop - c.cells.start) (c.buffer.length - c.written)
    match slice? c.cells.cells.toList c.cells.start (c.cells.start + n) with
    | none => .strayed
    | some bytes =>
      match splice? c.buffer c.written (c.written + n) bytes with
      | none => .strayed
      | some buffer =>
        .copied ⟨c.cells.start, c.written, n⟩
          ⟨{ c.cells with start := c.cells.start + n }, buffer, c.written + n, c.events⟩
  else .strayed

variable [Source σ]

/-- One pass of the loop. -/
def pass (b : Bookmarks) (c : Loop σ) : Pass σ :=
  if c.written < c.buffer.length then
    if c.cells.start = c.cells.stop then
      let turn := c.cells.translator.next b
      let cells := { c.cells with translator := turn.state }
      let events := c.events ++ turn.events
      match turn.answer with
      | .ok (.char x) => copy { c with cells := cells.put x, events }
      | .ok .ended => .left (.ok c.written) { c with cells, events }
      | .error f =>
        if c.written = 0 then .left (.error f.toFault) { c with cells, events }
        else .left (.ok c.written) { c with cells := { cells with deferred := some f }, events }
    else c.copy
  else .left (.ok c.written) c

/-- The passes of a loop that leaves after so many copies. One that strays is none. -/
inductive Runs (b : Bookmarks) :
    Loop σ → List Copy → Except Fault Nat → Loop σ → Prop where
  | left {c c' : Loop σ} {answer : Except Fault Nat} (pass : c.pass b = .left answer c') :
    Runs b c [] answer c'
  | copied {c c' c'' : Loop σ} {copy : Copy} {copies : List Copy} {answer : Except Fault Nat}
    (pass : c.pass b = .copied copy c') (later : Runs b c' copies answer c'') :
    Runs b c (copy :: copies) answer c''

/-- On the way from `c`, between two passes. -/
inductive Meets (b : Bookmarks) (c : Loop σ) : Loop σ → Prop where
  | start : Meets b c c
  | copied {d d' : Loop σ} {copy : Copy} (before : Meets b c d)
    (pass : d.pass b = .copied copy d') : Meets b c d'

end Loop

namespace Cells

variable [Source σ]

/-- A read. A deferred failure comes first. -/
inductive Reads (b : Bookmarks) (v : Cells σ) (buffer : List UInt8) :
    List Copy → Except Fault Nat → Loop σ → Prop where
  | deferred {f : Failure} (first : v.deferred = some f) :
    Reads b v buffer [] (.error f.toFault) { cells := { v with deferred := none }, buffer }
  | runs {copies : List Copy} {answer : Except Fault Nat} {c : Loop σ}
    (none : v.deferred = none) (run : Loop.Runs b { cells := v, buffer } copies answer c) :
    Reads b v buffer copies answer c

/-- What reads lead to, and what may be done to the translator between them. -/
inductive Reaches (t : Translator σ) : Cells σ → Prop where
  | start : Reaches t (.ofTranslator t)
  | read {v : Cells σ} {b : Bookmarks} {buffer : List UInt8} {copies : List Copy}
    {answer : Except Fault Nat} {c : Loop σ} (before : Reaches t v)
    (read : Reads b v buffer copies answer c) : Reaches t c.cells
  | next {v : Cells σ} (before : Reaches t v) (b : Bookmarks) :
    Reaches t { v with translator := (v.translator.next b).state }
  | close {v : Cells σ} (before : Reaches t v) :
    Reaches t { v with translator := v.translator.close.state }
  | locate {v : Cells σ} (before : Reaches t v) (l : Locator) :
    Reaches t { v with translator := v.translator.locatedBy l }

end Cells

/-! Slices. -/

theorem slice?_eq {bytes : List UInt8} {a b : Nat} (order : a ≤ b) (range : b ≤ bytes.length) :
    slice? bytes a b = some ((bytes.take b).drop a) := if_pos ⟨order, range⟩

/-- A slice of a buffer is overwritten, and nothing else. -/
structure Spliced (buffer : List UInt8) (a b : Nat) (bytes new : List UInt8) : Prop where
  length : new.length = buffer.length
  front : new.take b = buffer.take a ++ bytes
  rest : new.drop b = buffer.drop b

theorem exists_spliced {buffer bytes : List UInt8} {a b : Nat} (order : a ≤ b)
    (range : b ≤ buffer.length) (same : bytes.length = b - a) :
    ∃ new, splice? buffer a b bytes = some new ∧ Spliced buffer a b bytes new := by
  have old : ((buffer.take b).drop a).length = b - a := by
    rw [List.length_drop, List.length_take_of_le range]
  have front : (buffer.take a ++ bytes).length = b := by
    rw [List.length_append, List.length_take_of_le (Nat.le_trans order range)]
    omega
  refine ⟨buffer.take a ++ bytes ++ buffer.drop b, ?_, ?_, ?_, ?_⟩
  · rw [splice?, slice?_eq order range]
    exact if_pos (same.trans old.symm)
  · rw [List.length_append, front, List.length_drop]
    omega
  · exact List.take_left' front
  · exact List.drop_left' front

namespace Cells

/-- The slice is in range, and the cells up to its end are the character taken last. With a failure
put off the slice is empty. -/
structure Sound (v : Cells σ) : Prop where
  order : v.start ≤ v.stop
  range : v.stop ≤ 4
  taken : v.cells.toList.take v.stop = v.last.toList.flatMap Utf8.encode
  apart : v.deferred ≠ none → v.start = v.stop

variable {v : Cells σ} {b : Bookmarks}

theorem sound_ofTranslator (t : Translator σ) : (ofTranslator t).Sound :=
  ⟨Nat.le_refl 0, Nat.zero_le 4, rfl, fun h => absurd rfl h⟩

/-- The translator has no part in it. -/
theorem Sound.retranslated (h : v.Sound) (t : Translator σ) :
    Sound { v with translator := t } :=
  ⟨h.order, h.range, h.taken, h.apart⟩

theorem sound_put (v : Cells σ) (free : v.deferred = none) (c : Char) : (v.put c).Sound := by
  refine ⟨Nat.zero_le _, ByteView.length_encode_le c, ?_, fun h => absurd free h⟩
  simp [put]

theorem view_put (v : Cells σ) (c : Char) :
    (v.put c).view = { v.view with encoded := Utf8.encode c, start := 0 } := by
  simp [view, put]

theorem length_encoded (h : v.Sound) : v.view.encoded.length = v.stop := by
  have := h.range
  simp [view]
  omega

/-- The bytes that the view would copy next are a slice of the cells. -/
theorem block_view (v : Cells σ) (room : Nat) : v.view.block room =
    (v.cells.toList.take (v.start + min (v.stop - v.start) room)).drop v.start := by
  rw [ByteView.block, view, List.drop_take, List.drop_take, List.take_take,
    Nat.add_sub_cancel_left, Nat.min_comm]

end Cells

/-- The copy brings a byte, and is in range in the cells and in a buffer of `room` bytes. -/
structure Copy.Within (copy : Copy) (room : Nat) : Prop where
  some : 0 < copy.count
  cells : copy.start + copy.count ≤ 4
  buffer : copy.written + copy.count ≤ room

namespace Loop

/-- What the loop keeps. -/
structure Fit (c : Loop σ) : Prop where
  sound : c.cells.Sound
  free : c.cells.deferred = none
  within : c.written ≤ c.buffer.length

theorem fit_of_sound {v : Cells σ} (h : v.Sound) (free : v.deferred = none)
    (buffer : List UInt8) : Fit { cells := v, buffer } := ⟨h, free, Nat.zero_le _⟩

variable [Source σ] {b : Bookmarks} {c c' c'' : Loop σ}

/-- How the view would fill the rest of the buffer. -/
def filling (b : Bookmarks) (c : Loop σ) : Turn (ByteView σ) (Except Fault (Array UInt8)) :=
  c.cells.view.fill b (c.buffer.length - c.written) (c.buffer.take c.written).toArray c.events

/-- What a copying pass does. -/
structure Copies (b : Bookmarks) (c : Loop σ) (copy : Copy) (c' : Loop σ) : Prop where
  fit : c'.Fit
  within : copy.Within c.buffer.length
  written : c'.written = c.written + copy.count
  length : c'.buffer.length = c.buffer.length
  rest : c'.buffer.drop c'.written = c.buffer.drop c'.written
  filling : c'.filling b = c.filling b

/-- What the last pass does. -/
structure Leaves (b : Bookmarks) (c : Loop σ) (answer : Except Fault Nat) (c' : Loop σ) :
    Prop where
  sound : c'.cells.Sound
  buffer : c'.buffer = c.buffer
  written : c'.written = c.written
  filling : c.filling b =
    ⟨answer.map fun n => (c.buffer.take n).toArray, c'.cells.view, c'.events⟩
  count : ∀ n, answer = .ok n → n = c.written
  none : ∀ f, answer = .error f → c.written = 0

/-- No pass is proper that strays. -/
inductive Proper (b : Bookmarks) (c : Loop σ) : Pass σ → Prop where
  | copied {copy : Copy} {c' : Loop σ} (copies : Copies b c copy c') : Proper b c (.copied copy c')
  | left {answer : Except Fault Nat} {c' : Loop σ} (leaves : Leaves b c answer c') :
    Proper b c (.left answer c')

theorem Proper.of_filling {d : Loop σ} {p : Pass σ} (h : Proper b d p)
    (buffer : d.buffer = c.buffer) (written : d.written = c.written)
    (filling : d.filling b = c.filling b) : Proper b c p := by
  cases h with
  | copied h =>
    obtain ⟨fit, within, count, length, rest, same⟩ := h
    rw [buffer] at within length rest
    exact .copied ⟨fit, within, written ▸ count, length, rest, same.trans filling⟩
  | left h =>
    obtain ⟨sound, same, count, turn, all, none⟩ := h
    rw [buffer] at same turn
    rw [written] at count all none
    exact .left ⟨sound, same, count, filling.symm.trans turn, all, none⟩

/-- With bytes left and room for them the view copies a block. -/
theorem filling_block (h : c.cells.Sound) (some : c.cells.start < c.cells.stop)
    (room : c.written < c.buffer.length) (b : Bookmarks) :
    let block := c.cells.view.block (c.buffer.length - c.written)
    c.filling b = ByteView.fill b { c.cells.view with start := c.cells.start + block.length }
      (c.buffer.length - c.written - block.length)
      ((c.buffer.take c.written).toArray ++ block.toArray) c.events := by
  have left : c.cells.view.start < c.cells.view.encoded.length := by
    rw [Cells.length_encoded h]
    exact some
  rw [filling, ByteView.fill, if_neg (Nat.sub_ne_zero_of_lt room), if_pos left]
  rfl

theorem proper_copy (h : c.Fit) (some : c.cells.start < c.cells.stop)
    (room : c.written < c.buffer.length) (b : Bookmarks) : Proper b c c.copy := by
  obtain ⟨sound, free, within⟩ := h
  have range := sound.range
  have step := filling_block sound some room b
  have block := c.cells.block_view (c.buffer.length - c.written)
  generalize count : min (c.cells.stop - c.cells.start) (c.buffer.length - c.written) = n at block
  have fits : n ≤ c.cells.stop - c.cells.start ∧ n ≤ c.buffer.length - c.written ∧ 0 < n := by
    omega
  obtain ⟨few, short, brings⟩ := fits
  have cells : c.cells.start + n ≤ c.cells.cells.toList.length := by
    rw [Vector.length_toList]
    omega
  have taken := slice?_eq (Nat.le_add_right c.cells.start n) cells
  rw [← block] at taken
  have size : (c.cells.view.block (c.buffer.length - c.written)).length = n := by
    rw [block, List.length_drop, List.length_take_of_le cells, Nat.add_sub_cancel_left]
  simp only [size] at step
  generalize c.cells.view.block (c.buffer.length - c.written) = bytes at taken size step
  have room' : c.written + n ≤ c.buffer.length := Nat.add_le_of_le_sub' within short
  have whole : bytes.length = c.written + n - c.written := by omega
  obtain ⟨buffer, put, spliced⟩ := exists_spliced (Nat.le_add_right c.written n) room' whole
  rw [copy, if_pos ⟨sound.order, within⟩]
  simp only [count, taken, put]
  have fit :
      Fit ⟨{ c.cells with start := c.cells.start + n }, buffer, c.written + n, c.events⟩ := by
    refine ⟨⟨?_, range, sound.taken, fun put_off => absurd free put_off⟩, free, ?_⟩
    · exact Nat.add_le_of_le_sub' sound.order few
    · rw [spliced.length]
      exact room'
  refine .copied ⟨fit, ⟨brings, ?_, ?_⟩, rfl, spliced.length, spliced.rest, ?_⟩
  · exact Nat.le_trans (Nat.add_le_of_le_sub' sound.order few) range
  · exact room'
  · rw [step, filling, spliced.front, spliced.length, Nat.sub_add_eq, ← List.append_toArray]
    rfl

/-- With nothing left the view asks the translator. -/
theorem filling_next (h : c.cells.Sound) (none : c.cells.start = c.cells.stop)
    (room : c.written < c.buffer.length) (b : Bookmarks) :
    let turn := c.cells.translator.next b
    let view := { c.cells.view with translator := turn.state }
    let out := (c.buffer.take c.written).toArray
    let events := c.events ++ turn.events
    c.filling b = match turn.answer with
      | .ok (.char x) => ByteView.fill b { view with encoded := Utf8.encode x, start := 0 }
        (c.buffer.length - c.written) out events
      | .ok .ended => ⟨.ok out, view, events⟩
      | .error f =>
        if c.written = 0 then ⟨.error f.toFault, view, events⟩
        else ⟨.ok out, { view with deferred := some f }, events⟩ := by
  have left : ¬ c.cells.view.start < c.cells.view.encoded.length := by
    rw [Cells.length_encoded h]
    exact Nat.not_lt_of_le (Nat.le_of_eq none.symm)
  have empty : (c.buffer.take c.written).toArray.isEmpty = true ↔ c.written = 0 := by
    rw [List.isEmpty_toArray, List.isEmpty_iff, ← List.length_eq_zero_iff,
      List.length_take_of_le (Nat.le_of_lt room)]
  rw [filling, ByteView.fill, if_neg (Nat.sub_ne_zero_of_lt room), if_neg left]
  simp only [empty]
  rfl

theorem proper_ok {v : Cells σ} {events : Array Event} (sound : v.Sound)
    (turn : c.filling b = ⟨.ok (c.buffer.take c.written).toArray, v.view, events⟩) :
    Proper b c (.left (.ok c.written) { c with cells := v, events }) := by
  refine .left ⟨sound, rfl, rfl, turn, ?_, nofun⟩
  intro n same
  cases same
  rfl

theorem proper_char (h : c.Fit) (none : c.cells.start = c.cells.stop)
    (room : c.written < c.buffer.length) {x : Char}
    (answer : (c.cells.translator.next b).answer = .ok (.char x)) :
    let turn := c.cells.translator.next b
    let cells := { c.cells with translator := turn.state }
    Proper b c (copy { c with cells := cells.put x, events := c.events ++ turn.events }) := by
  intro turn cells
  let d : Loop σ := { c with cells := cells.put x, events := c.events ++ turn.events }
  have fit : d.Fit := ⟨cells.sound_put h.free x, h.free, h.within⟩
  have some : 0 < (Utf8.encode x).length := List.length_pos_iff.mpr (Utf8.encode_ne_nil x)
  have next := filling_next h.sound none room b
  dsimp only at next
  rw [answer] at next
  refine (proper_copy fit some room b).of_filling rfl rfl ?_
  rw [next, filling, Cells.view_put]
  rfl

theorem proper_next (h : c.Fit) (none : c.cells.start = c.cells.stop)
    (room : c.written < c.buffer.length) (b : Bookmarks) : Proper b c (c.pass b) := by
  have next := filling_next h.sound none room b
  have sound := h.sound.retranslated (c.cells.translator.next b).state
  rw [pass, if_pos room, if_pos none]
  dsimp only at next ⊢
  cases answer : (c.cells.translator.next b).answer with
  | ok i =>
    cases i with
    | char x => exact proper_char h none room answer
    | ended =>
      rw [answer] at next
      exact proper_ok sound next
  | error f =>
    rw [answer] at next
    dsimp only at next ⊢
    split
    · rename_i zero
      rw [if_pos zero] at next
      exact .left ⟨sound, rfl, rfl, next, nofun, fun _ _ => zero⟩
    · rename_i some
      rw [if_neg some] at next
      exact proper_ok ⟨sound.order, sound.range, sound.taken, fun _ => none⟩ next

theorem proper_pass (h : c.Fit) (b : Bookmarks) : Proper b c (c.pass b) := by
  by_cases room : c.written < c.buffer.length
  · by_cases none : c.cells.start = c.cells.stop
    · exact proper_next h none room b
    · rw [pass, if_pos room, if_neg none]
      exact proper_copy h (Nat.lt_of_le_of_ne h.sound.order none) room b
  · have all : c.buffer.length - c.written = 0 := Nat.sub_eq_zero_of_le (Nat.le_of_not_lt room)
    rw [pass, if_neg room]
    refine proper_ok h.sound ?_
    rw [filling, ByteView.fill, if_pos all]

theorem meets_fit {d : Loop σ} (h : c.Fit) (met : Meets b c d) :
    d.Fit ∧ d.buffer.length = c.buffer.length := by
  induction met with
  | start => exact ⟨h, rfl⟩
  | copied before pass ih =>
    have proper := proper_pass ih.1 b
    rw [pass] at proper
    cases proper with
    | copied copies => exact ⟨copies.fit, copies.length.trans ih.2⟩

theorem not_strayed (h : c.Fit) (b : Bookmarks) : c.pass b ≠ .strayed := by
  intro strayed
  have proper := proper_pass h b
  rw [strayed] at proper
  cases proper

/-- What a loop comes to: every copy is in range, and the view fills the buffer alike. -/
structure Ran (b : Bookmarks) (c : Loop σ) (copies : List Copy) (answer : Except Fault Nat)
    (c' : Loop σ) : Prop where
  sound : c'.cells.Sound
  within : ∀ copy ∈ copies, copy.Within c.buffer.length
  written : c'.written = c.written + Copy.total copies
  fits : c'.written ≤ c.buffer.length
  length : c'.buffer.length = c.buffer.length
  rest : c'.buffer.drop c'.written = c.buffer.drop c'.written
  filling : c.filling b =
    ⟨answer.map fun n => (c'.buffer.take n).toArray, c'.cells.view, c'.events⟩
  count : ∀ n, answer = .ok n → n = c'.written
  none : ∀ f, answer = .error f → c'.written = 0

theorem ran_left {answer : Except Fault Nat} (h : c.Fit) (leaves : Leaves b c answer c') :
    Ran b c [] answer c' := by
  obtain ⟨sound, buffer, written, filling, count, none⟩ := leaves
  refine ⟨sound, by simp, written, ?_, ?_, ?_, ?_, ?_, ?_⟩
  · exact written ▸ h.within
  · rw [buffer]
  · rw [buffer]
  · rw [buffer]
    exact filling
  · rw [written]
    exact count
  · rw [written]
    exact none

theorem ran_copied {copy : Copy} {copies : List Copy} {answer : Except Fault Nat}
    (first : Copies b c copy c') (later : Ran b c' copies answer c'') :
    Ran b c (copy :: copies) answer c'' := by
  obtain ⟨fit, within, written, length, rest, same⟩ := first
  obtain ⟨sound, within', written', fits, length', rest', filling, count, none⟩ := later
  rw [length] at within' fits length'
  have further : c'.written ≤ c''.written := written' ▸ Nat.le_add_right _ _
  refine ⟨sound, List.forall_mem_cons.mpr ⟨within, within'⟩, ?_, fits, length', ?_, ?_, count,
    none⟩
  · rw [written', written, Copy.total, Nat.add_assoc]
  · obtain ⟨n, more⟩ := Nat.exists_eq_add_of_le further
    rw [rest', more, ← List.drop_drop, rest, List.drop_drop]
  · exact same.symm.trans filling

theorem runs_ran {copies : List Copy} {answer : Except Fault Nat} (h : c.Fit)
    (runs : Runs b c copies answer c') : Ran b c copies answer c' := by
  induction runs with
  | left pass =>
    have proper := proper_pass h b
    rw [pass] at proper
    cases proper with
    | left leaves => exact ran_left h leaves
  | copied pass later ih =>
    have proper := proper_pass h b
    rw [pass] at proper
    cases proper with
    | copied copies => exact ran_copied copies (ih copies.fit)

/-- A loop leaves, because every pass that does not leaves less room. -/
theorem exists_runs {c : Loop σ} (h : c.Fit) (b : Bookmarks) :
    ∃ copies answer c', Runs b c copies answer c' := by
  have proper := proper_pass h b
  generalize pass : c.pass b = p at proper
  cases proper with
  | left leaves => exact ⟨_, _, _, .left pass⟩
  | copied copies =>
    have less := copies.within.some
    have more := copies.written
    have same := copies.length
    have fits := copies.fit.within
    obtain ⟨later, answer, c', runs⟩ := exists_runs copies.fit b
    exact ⟨_, _, _, .copied pass runs⟩
termination_by c.buffer.length - c.written

theorem runs_unique {copies copies' : List Copy} {answer answer' : Except Fault Nat}
    (runs : Runs b c copies answer c') (runs' : Runs b c copies' answer' c'') :
    copies' = copies ∧ answer' = answer ∧ c'' = c' := by
  induction runs generalizing copies' with
  | left pass =>
    cases runs' with
    | left pass' =>
      rw [pass] at pass'
      cases pass'
      exact ⟨rfl, rfl, rfl⟩
    | copied pass' later =>
      rw [pass] at pass'
      cases pass'
  | copied pass later ih =>
    cases runs' with
    | left pass' =>
      rw [pass] at pass'
      cases pass'
    | copied pass' later' =>
      rw [pass] at pass'
      cases pass'
      obtain ⟨rfl, rfl, rfl⟩ := ih later'
      exact ⟨rfl, rfl, rfl⟩

end Loop

namespace Cells

variable [Source σ] {b : Bookmarks} {v : Cells σ} {buffer : List UInt8}

/-- A read of the cells comes to what a read of their view does: the same bytes in front of what was
in the buffer, or the same fault and the buffer as it was. -/
structure Mirrors (turn : Turn (ByteView σ) (Except Fault (Array UInt8))) (buffer : List UInt8)
    (answer : Except Fault Nat) (c : Loop σ) : Prop where
  state : turn.state = c.cells.view
  events : turn.events = c.events
  ok : ∀ bytes, turn.answer = .ok bytes →
    answer = .ok bytes.size ∧ c.buffer = bytes.toList ++ buffer.drop bytes.size
  error : ∀ f, turn.answer = .error f → answer = .error f ∧ c.buffer = buffer

/-- The read leaves, and in one way only. No pass on its way strays. Its copies are in range, and
bring a byte each. -/
structure Returns (b : Bookmarks) (v : Cells σ) (buffer : List UInt8) (copies : List Copy)
    (answer : Except Fault Nat) (c : Loop σ) : Prop where
  reads : Reads b v buffer copies answer c
  only : ∀ {copies' answer' c'}, Reads b v buffer copies' answer' c' →
    copies' = copies ∧ answer' = answer ∧ c' = c
  met : v.deferred = none → ∀ d, Loop.Meets b { cells := v, buffer } d →
    d.cells.Sound ∧ d.written ≤ buffer.length ∧ d.pass b ≠ .strayed
  within : ∀ copy ∈ copies, copy.Within buffer.length
  written : c.written = Copy.total copies
  fits : c.written ≤ buffer.length
  mirrors : Mirrors (v.view.read b buffer.length) buffer answer c

theorem mirrors_of_ran {copies : List Copy} {answer : Except Fault Nat} {c : Loop σ}
    (free : v.deferred = none) (ran : Loop.Ran b { cells := v, buffer } copies answer c) :
    Mirrors (v.view.read b buffer.length) buffer answer c := by
  have filled : v.view.read b buffer.length = Loop.filling b { cells := v, buffer } := by
    have nothing : v.view.deferred = none := free
    rw [ByteView.read, nothing]
    rfl
  rw [filled, ran.filling]
  refine ⟨rfl, rfl, ?_, ?_⟩
  · intro bytes delivered
    cases answer with
    | error f => cases delivered
    | ok n =>
      cases delivered
      have all := ran.count n rfl
      have size : (c.buffer.take n).toArray.size = n := by
        rw [List.size_toArray, List.length_take_of_le]
        rw [ran.length, all]
        exact ran.fits
      have rest := ran.rest
      rw [← all] at rest
      rw [size]
      exact ⟨rfl, by rw [← rest, List.take_append_drop]⟩
  · intro f failed
    cases answer with
    | ok n => cases failed
    | error f' =>
      cases failed
      have rest := ran.rest
      rw [ran.none f rfl] at rest
      exact ⟨rfl, rest⟩

theorem reads_sound {copies : List Copy} {answer : Except Fault Nat} {c : Loop σ} (h : v.Sound)
    (reads : Reads b v buffer copies answer c) : c.cells.Sound := by
  cases reads with
  | deferred first => exact ⟨h.order, h.range, h.taken, fun none => absurd rfl none⟩
  | runs free run => exact (Loop.runs_ran (Loop.fit_of_sound h free buffer) run).sound

theorem reaches_sound {t : Translator σ} (h : Reaches t v) : v.Sound := by
  induction h with
  | start => exact sound_ofTranslator t
  | read before reads ih => exact reads_sound ih reads
  | next before b ih => exact ih.retranslated _
  | close before ih => exact ih.retranslated _
  | locate before l ih => exact ih.retranslated _

theorem returns_deferred {f : Failure} (first : v.deferred = some f) (b : Bookmarks)
    (buffer : List UInt8) : Returns b v buffer [] (.error f.toFault)
      { cells := { v with deferred := none }, buffer } := by
  have failed : v.deferred ≠ none := by simp [first]
  refine ⟨.deferred first, ?_, (absurd · failed), by simp, rfl, Nat.zero_le _, ?_⟩
  · intro copies' answer' c' reads
    cases reads with
    | deferred again =>
      cases first.symm.trans again
      exact ⟨rfl, rfl, rfl⟩
    | runs free => exact absurd free failed
  · have put_off : v.view.deferred = some f := first
    rw [ByteView.read, put_off]
    refine ⟨rfl, rfl, ?_, ?_⟩
    · intro bytes delivered
      cases delivered
    · intro f' failed
      cases failed
      exact ⟨rfl, rfl⟩

theorem returns_of_runs {copies : List Copy} {answer : Except Fault Nat} {c : Loop σ}
    (h : v.Sound) (free : v.deferred = none)
    (run : Loop.Runs b { cells := v, buffer } copies answer c) :
    Returns b v buffer copies answer c := by
  have fit := Loop.fit_of_sound h free buffer
  have ran := Loop.runs_ran fit run
  refine ⟨.runs free run, ?_, ?_, ran.within, ?_, ran.fits, mirrors_of_ran free ran⟩
  · intro copies' answer' c' reads
    cases reads with
    | deferred first => exact absurd first (by simp [free])
    | runs _ run' => exact Loop.runs_unique run run'
  · intro _ d met
    obtain ⟨fit, same⟩ := Loop.meets_fit fit met
    exact ⟨fit.sound, same ▸ fit.within, Loop.not_strayed fit b⟩
  · exact ran.written.trans (Nat.zero_add _)

theorem exists_returns (h : v.Sound) (b : Bookmarks) (buffer : List UInt8) :
    ∃ copies answer c, Returns b v buffer copies answer c := by
  cases first : v.deferred with
  | some f => exact ⟨_, _, _, returns_deferred first b buffer⟩
  | none =>
    obtain ⟨copies, answer, c, run⟩ := Loop.exists_runs (Loop.fit_of_sound h first buffer) b
    exact ⟨copies, answer, c, returns_of_runs h first run⟩

/-- What is to be delivered is always a slice of the cells, at the end of the character taken last,
and there is none with a failure put off. Every read leaves, and takes none but slices in range. -/
theorem reads_in_range {t : Translator σ} (reached : Reaches t v) :
    v.start ≤ v.stop ∧ v.stop ≤ 4 ∧
    (∃ rest, slice? v.cells.toList v.start v.stop = some rest ∧
      rest <:+ v.last.toList.flatMap Utf8.encode) ∧
    (v.deferred ≠ none → v.start = v.stop) ∧
    ∀ b buffer, ∃ copies answer c, Returns b v buffer copies answer c := by
  have sound := reaches_sound reached
  refine ⟨sound.order, sound.range, ?_, sound.apart, exists_returns sound⟩
  have range : v.stop ≤ v.cells.toList.length := by
    rw [Vector.length_toList]
    exact sound.range
  refine ⟨_, slice?_eq sound.order range, ?_⟩
  rw [sound.taken]
  exact List.drop_suffix _ _

/-- A character of two bytes, read into one. -/
def accented : Script := { entries := [.ok (.char 'é')] }

theorem accented_reads_in_range :
    ∃ v : Cells Script, Reaches (.ofSource accented) v ∧ v.start = 1 ∧ v.stop = 2 ∧
      (∃ rest, slice? v.cells.toList 1 2 = some rest ∧ rest <:+ Utf8.encode 'é') ∧
      ∃ copies answer c, Returns {} v [0, 0] copies answer c := by
  let t : Translator Script := { source := { entries := [] }, position := ⟨1, 2, 2⟩ }
  let v : Cells Script :=
    { translator := t, cells := #v[0xC3, 0xA9, 0, 0], start := 1, stop := 2, last := some 'é' }
  let first : Loop Script := { cells := ofTranslator (.ofSource accented), buffer := [0] }
  let after : Loop Script := { cells := v, buffer := [0xC3], written := 1 }
  have turn : (Translator.ofSource accented).next {} = ⟨.ok (.char 'é'), t, #[]⟩ :=
    (Translator.next_of_free {} rfl rfl).trans
      (Translator.scan_settled (i := .char 'é') (o := .plain (.char 'é') none) rfl rfl)
  have copied : first.pass {} = .copied ⟨0, 0, 1⟩ after := by
    have room : first.written < first.buffer.length := Nat.zero_lt_one
    have answered : first.cells.translator.next {} = ⟨.ok (.char 'é'), t, #[]⟩ := turn
    have none : first.cells.start = first.cells.stop := rfl
    rw [Loop.pass, if_pos room, if_pos none, answered]
    rfl
  have run : Loop.Runs {} first [⟨0, 0, 1⟩] (.ok 1) after := .copied copied (.left rfl)
  have reached : Reaches (.ofSource accented) v := .read .start (.runs rfl run)
  obtain ⟨-, -, part, -, returns⟩ := reads_in_range reached
  exact ⟨v, reached, rfl, rfl, part, returns {} [0, 0]⟩

end Cells
end EscapedText
