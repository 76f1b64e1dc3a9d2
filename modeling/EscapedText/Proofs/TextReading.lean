import EscapedText.Proofs.Reading
import EscapedText.Proofs.Scanning
import EscapedText.Source.Text

/-!
Translators over texts. A scan there is the scan of the characters still to come, so one read is
known from the grammar alone, and so are the characters that reading goes through.
-/
namespace EscapedText

namespace TextSource

/-- The characters still to come. -/
def unread (s : TextSource) : List Char := s.remaining.toList

theorem splits_remaining (s : TextSource) :
    s.Splits (s.text.sliceTo s.cursor).copy s.remaining := s.cursor.splits

theorem remaining_of_splits {s : TextSource} {before after : String} (h : s.Splits before after) :
    s.remaining = after := String.Pos.Splits.eq_right s.splits_remaining h

theorem unread_ofText (t : String) : (ofText t).unread = t.toList := by
  rw [unread, remaining_of_splits (splits_ofText t)]

theorem next_of_unread_nil {s : TextSource} (h : s.unread = []) :
    s.next = ⟨.ok .ended, s, #[]⟩ := by
  have hs := s.splits_remaining
  rw [String.toList_eq_nil_iff.mp h] at hs
  exact next_of_splits_end hs

theorem splits_of_unread_cons {s : TextSource} {c : Char} {v : List Char} (h : s.unread = c :: v) :
    s.Splits (s.text.sliceTo s.cursor).copy (String.singleton c ++ String.ofList v) := by
  have parts : s.remaining = String.singleton c ++ String.ofList v := by
    apply String.toList_inj.mp
    simpa [unread] using h
  rw [← parts]
  exact s.splits_remaining

theorem next_of_unread_cons {s : TextSource} {c : Char} {v : List Char} (h : s.unread = c :: v) :
    ∃ s', s.next = ⟨.ok (.char c), s', #[]⟩ ∧ s'.text = s.text ∧ s'.unread = v := by
  obtain ⟨s', hn, ht, hs'⟩ := next_of_splits (splits_of_unread_cons h)
  refine ⟨s', hn, ht, ?_⟩
  rw [unread, remaining_of_splits hs', String.toList_ofList]

/-- As a source a text takes no notice of the bookmarks. -/
theorem source_next_nil (b : Bookmarks) {s : TextSource} (h : s.unread = []) :
    Source.next b s = ⟨.ok .ended, s, #[]⟩ := next_of_unread_nil h

theorem source_next_cons (b : Bookmarks) {s : TextSource} {c : Char} {v : List Char}
    (h : s.unread = c :: v) :
    ∃ s', Source.next b s = ⟨.ok (.char c), s', #[]⟩ ∧ s'.unread = v := by
  obtain ⟨s', next, -, rest⟩ := next_of_unread_cons h
  exact ⟨s', next, rest⟩

theorem offset_of_splits {s : TextSource} {before after : String} (h : s.Splits before after) :
    s.offset = before.utf8ByteSize :=
  congrArg String.Pos.Raw.byteIdx (String.Pos.Splits.offset_eq_rawEndPos h)

theorem offset_next {s : TextSource} {c : Char} {v : List Char} (h : s.unread = c :: v) :
    s.next.state.offset = s.offset + c.utf8Size := by
  have hs := splits_of_unread_cons h
  obtain ⟨s', hn, -, hs'⟩ := next_of_splits hs
  rw [hn, offset_of_splits hs, offset_of_splits hs', String.utf8ByteSize_append,
    String.utf8ByteSize_singleton]

end TextSource

namespace Translator

/-- A scan takes from the source what it takes from the characters still to come. -/
theorem scan_text (b : Bookmarks) (s : Scan) (events : Array Event) {t : Translator TextSource}
    {v : List Char} (h : t.source.unread = v) :
    ∃ source used, v = used ++ (s.through v).2 ∧ source.text = t.source.text ∧
      source.unread = (s.through v).2 ∧
      t.scan b s events =
        settle b { t with source, position := t.position.past used } events (s.through v).1 := by
  induction v generalizing s t with
  | nil =>
    have hn : Source.next b t.source = ⟨.ok .ended, t.source, #[]⟩ :=
      TextSource.next_of_unread_nil h
    refine ⟨t.source, [], rfl, rfl, h, ?_⟩
    rw [scan_settled (i := .ended) (by rw [hn]) s.feed_ended_eq_final, hn]
    simp only [Array.append_empty]
    rfl
  | cons c v ih =>
    obtain ⟨source, hn', ht, hv⟩ := TextSource.next_of_unread_cons h
    have hn : Source.next b t.source = ⟨.ok (.char c), source, #[]⟩ := hn'
    rw [Scan.through_cons]
    cases hs : s.feed (.char c) with
    | more s' =>
      obtain ⟨source', used, hused, ht', hv', scan⟩ := ih s' (t := t.taking source (.char c)) hv
      refine ⟨source', c :: used, congrArg (c :: ·) hused, ht'.trans ht, hv', ?_⟩
      rw [scan_more (i := .char c) (by rw [hn]) hs, hn]
      simp only [Array.append_empty]
      exact scan
    | settled o =>
      refine ⟨source, [c], rfl, ht, hv, ?_⟩
      rw [scan_settled (i := .char c) (by rw [hn]) hs, hn]
      simp only [Array.append_empty]
      rfl

/-- Between two tokens, with `v` still to come. -/
structure Ready (t : Translator TextSource) (v : List Char) : Prop where
  opened : t.closed = false
  free : t.held = none
  ahead : t.source.unread = v

variable {t : Translator TextSource} {v : List Char}

theorem ready_ofText (text : String) : Ready (ofSource (.ofText text)) text.toList :=
  ⟨rfl, rfl, TextSource.unread_ofText text⟩

theorem next_of_ready (b : Bookmarks) (h : Ready t v) :
    ∃ source used, v = used ++ (Scan.fresh.through v).2 ∧ source.text = t.source.text ∧
      source.unread = (Scan.fresh.through v).2 ∧
      t.next b = settle b { t with source, position := t.position.past used } #[]
        (Scan.fresh.through v).1 := by
  rw [next_of_free b h.opened h.free]
  exact scan_text b .fresh #[] h.ahead

theorem next_of_ready_broken (b : Bookmarks) {d : Defect} {held : Option Item} {rest : List Char}
    (h : Ready t v) (hv : Broken v d held rest) :
    ∃ source used, v = used ++ rest ∧ source.text = t.source.text ∧ source.unread = rest ∧
      t.next b = settle b { t with source, position := t.position.past used } #[]
        (.broken d held) := by
  have hn := next_of_ready b h
  rw [Scan.through_broken hv] at hn
  exact hn

theorem yields_piece (b : Bookmarks) {p : Piece} (h : Ready t (p.text ++ v)) :
    ∃ u, Yields b t p.meaning u ∧ Ready u v := by
  obtain ⟨source, used, -, -, hv, hn⟩ := next_of_ready b h
  rw [Scan.through_piece] at hv hn
  cases p with
  | plain c hc =>
    refine ⟨(t.next b).state, yields_cons_iff.mpr ⟨by rw [hn]; rfl, yields_nil _⟩, ?_⟩
    rw [hn]
    exact ⟨h.opened, rfl, hv⟩
  | literal c hc =>
    -- The held character comes back in a read of its own.
    have back : (t.next b).state.next b = ⟨.ok (.char c), { t with
        source, position := t.position.past used, held := none }, #[]⟩ := by
      rw [hn]
      exact next_of_held b h.opened rfl
    refine ⟨((t.next b).state.next b).state, ?_, ?_⟩
    · refine yields_cons_iff.mpr ⟨by rw [hn]; rfl, yields_cons_iff.mpr ⟨?_, yields_nil _⟩⟩
      rw [back]
    · rw [back]
      exact ⟨h.opened, rfl, hv⟩
  | unit e high low =>
    refine ⟨(t.next b).state, yields_cons_iff.mpr ⟨by rw [hn]; rfl, yields_nil _⟩, ?_⟩
    rw [hn]
    exact ⟨h.opened, h.free, hv⟩
  | pair e f high low =>
    refine ⟨(t.next b).state, yields_cons_iff.mpr ⟨by rw [hn]; rfl, yields_nil _⟩, ?_⟩
    rw [hn]
    exact ⟨h.opened, h.free, hv⟩

/-- At the end of the text, but for the end itself that may be held. -/
structure Exhausted (t : Translator TextSource) : Prop where
  opened : t.closed = false
  held : t.held = none ∨ t.held = some .ended
  ahead : t.source.unread = []

theorem next_of_exhausted (b : Bookmarks) (h : Exhausted t) : (t.next b).answer = .ok .ended := by
  rcases h.held with free | ended
  · obtain ⟨source, used, -, -, ahead, hn⟩ := next_of_ready b ⟨h.opened, free, h.ahead⟩
    rw [hn]
    rfl
  · rw [next_of_held b h.opened ended]

theorem yields_tail (b : Bookmarks) {trailing : Bool} (h : Ready t (Spelling.tail trailing)) :
    ∃ u, Yields b t (Spelling.tail trailing) u ∧ Exhausted u := by
  cases trailing with
  | false => exact ⟨t, yields_nil t, h.opened, .inl h.free, h.ahead⟩
  | true =>
    obtain ⟨source, used, -, -, ahead, hn⟩ := next_of_ready b h
    refine ⟨(t.next b).state, yields_cons_iff.mpr ⟨by rw [hn]; rfl, yields_nil _⟩, ?_⟩
    -- The end of the input is what settled the backslash, and it is held.
    rw [hn]
    exact ⟨h.opened, .inr rfl, ahead⟩

theorem yields_pieces (b : Bookmarks) (ps : List Piece)
    (h : Ready t (ps.flatMap Piece.text ++ v)) :
    ∃ u, Yields b t (ps.flatMap Piece.meaning) u ∧ Ready u v := by
  induction ps generalizing t with
  | nil => exact ⟨t, yields_nil t, h⟩
  | cons p ps ih =>
    rw [List.flatMap_cons, List.append_assoc] at h
    obtain ⟨u, first, ready⟩ := yields_piece b h
    obtain ⟨w, later, ready⟩ := ih ready
    exact ⟨w, first.trans later, ready⟩

theorem yields_spelling (b : Bookmarks) (s : Spelling) (h : Ready t s.text) :
    ∃ u, Yields b t s.meaning u ∧ Exhausted u := by
  obtain ⟨u, first, ready⟩ := yields_pieces b s.pieces h
  obtain ⟨w, later, done⟩ := yields_tail b ready
  exact ⟨w, first.trans later, done⟩

theorem readAll_spelling (b : Bookmarks) (s : Spelling) (h : Ready t s.text) (out : String) :
    (t.readAll b out).answer = (.ok s.meaning.length, out ++ String.ofList s.meaning) := by
  obtain ⟨u, yields, done⟩ := yields_spelling b s h
  exact readAll_of_ended yields (next_of_exhausted b done) out

/-- The reads of pieces with something broken behind them come to a refusal. -/
theorem refused_of_broken (b : Bookmarks) (ps : List Piece) {w : List Char} {d : Defect}
    {held : Option Item} {rest : List Char} (broken : Broken w d held rest)
    (h : Ready t (ps.flatMap Piece.text ++ w)) :
    ∃ u p, Yields b t (ps.flatMap Piece.meaning) u ∧
      (u.next b).answer = .error (.refused (.malformed p d)) := by
  obtain ⟨u, yields, ready⟩ := yields_pieces b ps h
  obtain ⟨source, used, -, -, -, turn⟩ := next_of_ready_broken b ready broken
  exact ⟨u, _, yields, by rw [turn]; rfl⟩

theorem spelled_or_refused (b : Bookmarks) {t : Translator TextSource} {v : List Char}
    (h : Ready t v) :
    (∃ s : Spelling, s.text = v) ∨
      ∃ cs u p d, Yields b t cs u ∧ (u.next b).answer = .error (.refused (.malformed p d)) := by
  rcases spelled_or_broken v with spelled | ⟨ps, w, d, held, rest, rfl, broken⟩
  · exact .inl spelled
  · obtain ⟨u, p, yields, refused⟩ := refused_of_broken b ps broken h
    exact .inr ⟨_, u, p, d, yields, refused⟩

end Translator
end EscapedText
