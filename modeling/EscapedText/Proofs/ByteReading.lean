import EscapedText.Proofs.Segments
import EscapedText.Source.Bytes

/-!
Reading bytes that a device serves in pieces and then no more. However they are cut into pieces,
each read takes the next segment from the front: it answers the character, or names the place of
the damage, and leaves what comes behind.
-/
namespace EscapedText

/-- A way of cutting bytes into pieces that are not empty. -/
structure Cut (v : List UInt8) where
  pieces : List (List UInt8)
  solid : ∀ p ∈ pieces, p ≠ []
  whole : pieces.flatten = v

def Cut.device {v : List UInt8} (cut : Cut v) : List ReadStep := cut.pieces.map .bytes

namespace ByteSource

/-- Open, with the bytes `v` to come in pieces, and then the end for good. -/
structure Serves (s : ByteSource) (v : List UInt8) : Prop where
  opened : s.closed = false
  ahead : ∃ pieces : List (List UInt8), s.device = pieces.map .bytes ∧ (∀ p ∈ pieces, p ≠ []) ∧
    s.unread ++ pieces.flatten = v

theorem serves_ofDevice {v : List UInt8} (cut : Cut v) : Serves (ofDevice cut.device) v :=
  ⟨rfl, cut.pieces, rfl, cut.solid, cut.whole⟩

variable {s : ByteSource} {v : List UInt8}

theorem fill_piece {p : List UInt8} {rest : List ReadStep} (unread : s.unread = [])
    (device : s.device = .bytes p :: rest) : s.fill = (.ok (), { s with
      device := if p.length ≤ ReadStep.limit then rest
        else .bytes (p.drop ReadStep.limit) :: rest
      unread := p.take ReadStep.limit }) := by
  simp [fill, unread, device]

theorem head?_take_append (p w : List UInt8) (solid : p ≠ []) :
    (p.take ReadStep.limit).head? = (p ++ w).head? := by
  obtain ⟨b, q, rfl⟩ := List.exists_cons_of_ne_nil solid
  rfl

/-- Filling loses nothing, and brings the first byte if there is one. -/
theorem fill_serves (h : s.Serves v) :
    ∃ t, s.fill = (.ok (), t) ∧ t.Serves v ∧ t.offset = s.offset ∧ t.unread.head? = v.head? := by
  obtain ⟨pieces, device, solid, whole⟩ := h.ahead
  cases unread : s.unread with
  | cons b bs =>
    have still : s.fill = (.ok (), s) := by simp [fill, unread]
    refine ⟨s, still, h, rfl, ?_⟩
    rw [← whole, unread]
    rfl
  | nil =>
    rw [unread, List.nil_append] at whole
    cases pieces with
    | nil =>
      have still : s.fill = (.ok (), s) := by simp [fill, unread, device]
      refine ⟨s, still, h, rfl, ?_⟩
      rw [← whole, unread]
      rfl
    | cons p pieces =>
      have solid' : ∀ q ∈ pieces, q ≠ [] := fun q hq => solid q (List.mem_cons_of_mem p hq)
      refine ⟨_, fill_piece unread device, ⟨h.opened, ?_⟩, rfl, ?_⟩
      · by_cases fits : p.length ≤ ReadStep.limit
        · refine ⟨pieces, if_pos fits, solid', ?_⟩
          rw [List.take_of_length_le fits]
          exact whole
        · refine ⟨p.drop ReadStep.limit :: pieces, if_neg fits, ?_, ?_⟩
          · intro q hq
            rcases List.mem_cons.mp hq with rfl | hq
            · exact List.drop_eq_nil_iff.not.mpr fits
            · exact solid' q hq
          · rw [List.flatten_cons, ← List.append_assoc, List.take_append_drop]
            exact whole
      · rw [← whole, List.flatten_cons]
        exact head?_take_append p _ (solid p List.mem_cons_self)

theorem use_serves {b : UInt8} (h : s.Serves (b :: v)) (head : s.unread.head? = some b) :
    s.use.Serves v ∧ s.use.offset = s.offset + 1 := by
  obtain ⟨pieces, device, solid, whole⟩ := h.ahead
  obtain ⟨bs, unread⟩ := List.head?_eq_some_iff.mp head
  rw [unread] at whole
  refine ⟨⟨h.opened, pieces, device, solid, ?_⟩, rfl⟩
  rw [use, unread]
  exact (List.cons.inj whole).2

/-- The run of continuation bytes is taken, as far as more are wanted. -/
theorem continued_serves (lead more : Nat) (seq : List UInt8) {tail rest : List UInt8}
    (h : s.Serves (tail ++ rest)) (all : ∀ b ∈ tail, Utf8.Continues b) :
    ∃ t, continued lead (more + tail.length) seq s = continued lead more (seq ++ tail) t ∧
      t.Serves rest ∧ t.offset = s.offset + tail.length := by
  induction tail generalizing s seq with
  | nil => exact ⟨s, by simp, h, rfl⟩
  | cons b tail ih =>
    obtain ⟨t, fill, serves, offset, head⟩ := fill_serves h
    obtain ⟨serves', offset'⟩ := use_serves serves head
    obtain ⟨u, later, serves'', offset''⟩ :=
      ih (seq ++ [b]) serves' fun c hc => all c (List.mem_cons_of_mem b hc)
    have continues : Utf8.isContinuation b = true :=
      Utf8.isContinuation_iff.mpr (all b List.mem_cons_self)
    have first : continued lead (more + tail.length + 1) seq s =
        continued lead (more + tail.length) (seq ++ [b]) t.use := by
      rw [continued, fill]
      simp [head, continues]
    refine ⟨u, ?_, serves'', ?_⟩
    · rw [List.length_cons, ← Nat.add_assoc, first, later, List.append_assoc]
      rfl
    · rw [offset'', offset', offset, List.length_cons]
      omega

theorem continued_stops (lead more : Nat) (seq : List UInt8) (h : s.Serves v)
    (stop : ∀ b, v.head? = some b → ¬ Utf8.Continues b) :
    ∃ t, continued lead (more + 1) seq s = (.error (invalid lead), t) ∧ t.Serves v ∧
      t.offset = s.offset := by
  obtain ⟨t, fill, serves, offset, head⟩ := fill_serves h
  refine ⟨t, ?_, serves, offset⟩
  rw [continued, fill]
  cases hv : v.head? with
  | none => simp [head, hv]
  | some b =>
    have other : ¬ Utf8.isContinuation b = true := mt Utf8.isContinuation_iff.mp (stop b hv)
    simp [head, hv, other]

/-! Whole reads. -/

/-- What a segment is answered with that begins at `offset`. -/
def answerTo (offset : Nat) : Utf8.Segment → Except Fault Item
  | .char c => .ok (.char c)
  | .damaged _ => .error (invalid offset)

variable {g : Utf8.Segment} {rest : List UInt8}

theorem answerTo_of_width {lead : UInt8} {tail : List UInt8} (offset : Nat)
    (hg : g.bytes = lead :: tail) (h : Utf8.width lead ≠ tail.length + 1) :
    answerTo offset g = .error (invalid offset) := by
  cases g with
  | char c => exact absurd (Utf8.width_of_encode hg) h
  | damaged bs => rfl

theorem continued_segment (fits : g.Fits rest) (offset : Nat) (s : ByteSource) :
    continued offset 0 g.bytes s = (answerTo offset g, s) := by
  rw [continued]
  cases g with
  | char c =>
    rw [Utf8.Segment.bytes, Utf8.decode?_encode]
    rfl
  | damaged bs =>
    cases hd : Utf8.decode? bs with
    | none => simp only [Utf8.Segment.bytes, hd, answerTo]
    | some c => exact absurd (Utf8.encode_of_decode? hd) (Utf8.Damaged.encode_ne fits c)

theorem read_segment (h : s.Serves (g.bytes ++ rest)) (fits : g.Fits rest) :
    ∃ t, s.read = (answerTo s.offset g, t) ∧ t.Serves rest ∧
      t.offset = s.offset + g.bytes.length := by
  obtain ⟨lead, tail, hg, spans⟩ := Utf8.Segment.exists_spans fits
  have size : g.bytes.length = tail.length + 1 := congrArg List.length hg
  rw [hg] at h
  obtain ⟨t, fill, serves, offset, head⟩ := fill_serves h
  obtain ⟨serves, offset'⟩ := use_serves serves head
  have few := spans.few
  cases hw : Utf8.width lead with
  | zero =>
    rw [hw] at few
    obtain rfl : tail = [] := List.length_eq_zero_iff.mp (Nat.le_zero.mp few)
    have damaged := answerTo_of_width s.offset hg (by simp [hw])
    refine ⟨t.use, ?_, serves, by omega⟩
    simp [read, h.opened, fill, head, hw, damaged]
  | succ most =>
    rw [hw, Nat.add_sub_cancel] at few
    have start : s.read = continued s.offset most [lead] t.use := by
      simp [read, h.opened, fill, head, hw]
    obtain ⟨more, rfl⟩ := Nat.exists_eq_add_of_le' few
    obtain ⟨u, run, serves, offset''⟩ :=
      continued_serves s.offset more [lead] serves spans.all
    rw [start, run, List.singleton_append]
    cases more with
    | zero =>
      refine ⟨u, ?_, serves, by omega⟩
      rw [← hg]
      exact continued_segment fits s.offset u
    | succ more =>
      have breaks := spans.stop (by omega)
      obtain ⟨w, stopped, serves, same⟩ :=
        continued_stops s.offset more (lead :: tail) serves breaks
      refine ⟨w, ?_, serves, by omega⟩
      rw [stopped, answerTo_of_width s.offset hg (by omega)]

theorem read_ended (h : s.Serves []) :
    ∃ t, s.read = (.ok .ended, t) ∧ t.Serves [] ∧ t.offset = s.offset := by
  obtain ⟨t, fill, serves, offset, head⟩ := fill_serves h
  refine ⟨t, ?_, serves, offset⟩
  simp [read, h.opened, fill, head]

/-- The answers to `n` reads, each with the offset behind it. -/
def readings (s : ByteSource) : Nat → List (Except Fault Item × Nat)
  | 0 => []
  | n + 1 => (s.read.1, s.read.2.offset) :: s.read.2.readings n

/-- The answers to the segments from `offset` on, each with the offset behind it. -/
def report (offset : Nat) : List Utf8.Segment → List (Except Fault Item × Nat)
  | [] => []
  | g :: gs =>
    (answerTo offset g, offset + g.bytes.length) :: report (offset + g.bytes.length) gs

theorem readings_ended (h : s.Serves []) (n : Nat) :
    s.readings n = List.replicate n (.ok .ended, s.offset) := by
  induction n generalizing s with
  | zero => rfl
  | succ n ih =>
    obtain ⟨t, read, serves, offset⟩ := read_ended h
    rw [readings, read, ih serves, offset]
    rfl

theorem readings_segments {gs : List Utf8.Segment} (h : s.Serves (gs.flatMap Utf8.Segment.bytes))
    (all : Utf8.Segment.AllFit gs) (n : Nat) :
    s.readings (gs.length + n) = report s.offset gs ++
      List.replicate n (.ok .ended, s.offset + (gs.flatMap Utf8.Segment.bytes).length) := by
  induction gs generalizing s with
  | nil =>
    rw [List.length_nil, Nat.zero_add]
    exact readings_ended h n
  | cons g gs ih =>
    obtain ⟨fits, later⟩ := all
    obtain ⟨t, read, serves, offset⟩ := read_segment h fits
    have rest := ih serves later
    rw [List.length_cons, Nat.add_right_comm, readings, read, rest, offset, report,
      List.flatMap_cons, List.length_append, Nat.add_assoc s.offset]
    rfl

theorem report_ok_iff {gs : List Utf8.Segment} {offset : Nat} :
    (∀ r ∈ report offset gs, r.1.isOk) ↔ ∃ cs : List Char, gs = cs.map .char := by
  induction gs generalizing offset with
  | nil => exact ⟨fun _ => ⟨[], rfl⟩, by simp [report]⟩
  | cons g gs ih =>
    rw [report, List.forall_mem_cons, ih]
    cases g with
    | char c =>
      constructor
      · rintro ⟨-, cs, rfl⟩
        exact ⟨c :: cs, rfl⟩
      · rintro ⟨_ | ⟨d, cs⟩, h⟩
        · contradiction
        · exact ⟨rfl, cs, (List.cons.inj h).2⟩
    | damaged bs =>
      constructor
      · rintro ⟨failed, -⟩
        contradiction
      · rintro ⟨_ | ⟨d, cs⟩, h⟩
        · contradiction
        · have := (List.cons.inj h).1
          contradiction

/-- However bytes are cut into pieces, the reads take their segments one after another, and then
the input has ended for good. None fails just when the bytes are the UTF-8 of a text. -/
theorem readings_ofDevice {v : List UInt8} (cut : Cut v) :
    ∃ gs : List Utf8.Segment, gs.flatMap Utf8.Segment.bytes = v ∧ Utf8.Segment.AllFit gs ∧
      (∀ gs', gs'.flatMap Utf8.Segment.bytes = v → Utf8.Segment.AllFit gs' → gs' = gs) ∧
      (∀ g ∈ gs, g.bytes ≠ []) ∧
      (∀ n, (ofDevice cut.device).readings (gs.length + n) =
        report 0 gs ++ List.replicate n (.ok .ended, v.length)) ∧
      (∀ n, (∀ r ∈ (ofDevice cut.device).readings (gs.length + n), r.1.isOk) ↔
        v.toByteArray.IsValidUTF8) ∧
      ∀ cs : List Char, v = cs.flatMap Utf8.encode ↔ gs = cs.map .char := by
  obtain ⟨gs, rfl, all⟩ := Utf8.exists_segments v
  have reads (n : Nat) := readings_segments (serves_ofDevice cut) all n
  have start : (ofDevice cut.device).offset = 0 := rfl
  simp only [start, Nat.zero_add] at reads
  refine ⟨gs, rfl, all, ?_, ?_, reads, ?_, ?_⟩
  · intro gs' same all'
    exact Utf8.Segment.segments_unique all' all same
  · exact Utf8.Segment.bytes_ne_nil_of_mem all
  · intro n
    have ended : ∀ r ∈ List.replicate n ((Except.ok Item.ended : Except Fault Item),
        (gs.flatMap Utf8.Segment.bytes).length), r.1.isOk := by
      intro r hr
      rw [List.eq_of_mem_replicate hr]
      rfl
    rw [reads n, List.forall_mem_append, and_iff_left ended, report_ok_iff, Utf8.isValidUTF8_iff]
    exact exists_congr fun cs => Utf8.Segment.eq_chars_iff all cs
  · exact fun cs => (Utf8.Segment.eq_chars_iff all cs).symm

/-- A sequence that breaks off in front of a letter, cut at another place. -/
example : (ofDevice (Cut.device (v := [0x41, 0xE2, 0x82, 0x42])
      ⟨[[0x41, 0xE2], [0x82, 0x42]], by decide, rfl⟩)).readings 4 =
    [(.ok (.char 'A'), 1), (.error (invalid 1), 3), (.ok (.char 'B'), 4), (.ok .ended, 4)] := rfl

end ByteSource
end EscapedText
