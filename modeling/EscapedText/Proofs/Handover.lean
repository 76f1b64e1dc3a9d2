import EscapedText.Proofs.Budget
import EscapedText.Proofs.Stacking

/-!
A source taken back. Reads may stop anywhere in a text, and its source be given to another
translator. What has been read, the one character that may be held back, and what the other makes of
the rest are together what one translator makes of the whole. A character is held back only behind a
backslash that opens no escape, so a translation goes on as if it had not changed hands everywhere
else.
-/
namespace EscapedText

/-- The characters held back; the end of the input is none. -/
def Translator.heldChars {σ : Type} (t : Translator σ) : List Char :=
  t.held.toList.flatMap Item.chars

/-- How reads part the text `v`: `e` has been read, an item may be held back, and `w` is to come. -/
inductive Parted (v : List Char) : (e : List Char) → Option Item → (w : List Char) → Prop where
  | between (ps : List Piece) (s : Spelling) (parts : v = ps.flatMap Piece.text ++ s.text) :
    Parted v (ps.flatMap Piece.meaning) none s.text
  | amid (ps : List Piece) (c : Char) (other : c ≠ 'u') (s : Spelling)
    (parts : v = ps.flatMap Piece.text ++ '\\' :: c :: s.text) :
    Parted v (ps.flatMap Piece.meaning ++ ['\\']) (some (.char c)) s.text
  | ended (s : Spelling) (parts : v = s.text) {held : Option Item}
    (back : held = none ∨ held = some .ended) : Parted v s.meaning held []

/-- What comes to the end of the text has the meaning of a spelling of it. -/
theorem Parted.meaning {v e w : List Char} {held : Option Item} (h : Parted v e held w) :
    ∃ s r : Spelling, s.text = v ∧ r.text = w ∧
      s.meaning = e ++ (held.toList.flatMap Item.chars ++ r.meaning) := by
  cases h with
  | between ps s parts =>
    refine ⟨⟨ps ++ s.pieces, s.trailing⟩, s, ?_, rfl, ?_⟩
    · simp [parts, Spelling.text]
    · simp [Spelling.meaning]
  | amid ps c other s parts =>
    refine ⟨⟨ps ++ .literal c other :: s.pieces, s.trailing⟩, s, ?_, rfl, ?_⟩
    · simp [parts, Spelling.text, Piece.text]
    · simp [Spelling.meaning, Piece.meaning, Item.chars]
  | ended s parts back =>
    refine ⟨s, ⟨[], false⟩, parts.symm, rfl, ?_⟩
    rcases back with rfl | rfl <;> simp [Item.chars, Spelling.meaning, Spelling.tail]

/-- The item that an outcome answers, unless it is a refusal. -/
def Outcome.item? : Outcome → Option Item
  | .plain i _ => some i
  | .decoded c => some (.char c)
  | .broken _ _ => none

/-- A scan between two pieces takes the next piece, or comes to the end. -/
theorem parted_through {v : List Char} {ps : List Piece} {s : Spelling}
    (parts : v = ps.flatMap Piece.text ++ s.text) :
    ∃ i, (Scan.fresh.through s.text).1.item? = some i ∧
      Parted v (ps.flatMap Piece.meaning ++ i.chars) (Scan.fresh.through s.text).1.held
        (Scan.fresh.through s.text).2 := by
  obtain ⟨qs, trailing⟩ := s
  cases qs with
  | nil =>
    cases trailing with
    | false => exact ⟨.ended, rfl, .ended ⟨ps, false⟩ parts (.inl rfl)⟩
    | true => exact ⟨.char '\\', rfl, .ended ⟨ps, true⟩ parts (.inr rfl)⟩
  | cons p qs =>
    rw [Spelling.text_cons] at parts ⊢
    rw [Scan.through_piece]
    have whole : v = (ps ++ [p]).flatMap Piece.text ++ Spelling.text ⟨qs, trailing⟩ := by
      simpa using parts
    have between := Parted.between (ps ++ [p]) ⟨qs, trailing⟩ whole
    rw [List.flatMap_append, List.flatMap_singleton] at between
    cases p with
    | plain c h => exact ⟨.char c, rfl, between⟩
    | literal c h => exact ⟨.char '\\', rfl, .amid ps c h ⟨qs, trailing⟩ parts⟩
    | unit e high low => exact ⟨.char (e.char high low), rfl, between⟩
    | pair e f high low => exact ⟨.char (e.pair f high low), rfl, between⟩

namespace Translator

variable {b : Bookmarks} {t : Translator TextSource} {v e : List Char}

/-- Parted where it stands. -/
structure Parts (v e : List Char) (t : Translator TextSource) : Prop where
  opened : t.closed = false
  parted : Parted v e t.held t.source.unread

theorem settle_item {σ : Type} {t : Translator σ} {o : Outcome} {i : Item}
    (item : o.item? = some i) (free : t.held = none) (events : Array Event) :
    (settle b t events o).answer = .ok i ∧ (settle b t events o).state.held = o.held := by
  cases o with
  | plain j held =>
    cases item
    exact ⟨rfl, rfl⟩
  | decoded c =>
    cases item
    exact ⟨rfl, free⟩
  | broken d held => cases item

theorem parts_next (h : Parts v e t) (b : Bookmarks) :
    ∃ i, (t.next b).answer = .ok i ∧ Parts v (e ++ i.chars) (t.next b).state := by
  obtain ⟨opened, parted⟩ := h
  generalize held : t.held = back at parted
  generalize unread : t.source.unread = w at parted
  cases parted with
  | between ps s parts =>
    obtain ⟨source, used, -, -, ahead, turn⟩ := next_of_ready b ⟨opened, held, unread⟩
    obtain ⟨i, item, later⟩ := parted_through parts
    let u : Translator TextSource := { t with source, position := t.position.past used }
    obtain ⟨answer, back⟩ := settle_item (b := b) (t := u) item held #[]
    obtain ⟨from', closed⟩ := settle_state (b := b) (t := u) #[] (Scan.fresh.through s.text).1
    refine ⟨i, turn ▸ answer, ?_, ?_⟩
    · rw [turn]
      exact closed.trans opened
    · rw [turn, back, from', ahead]
      exact later
  | amid ps c other s parts =>
    rw [next_of_held b opened held]
    have whole : v = (ps ++ [Piece.literal c other]).flatMap Piece.text ++ s.text := by
      simpa [Piece.text] using parts
    have between := Parted.between (ps ++ [.literal c other]) s whole
    refine ⟨.char c, rfl, opened, ?_⟩
    simpa [Piece.meaning, Item.chars, unread] using between
  | ended s parts back =>
    have still := TextSource.source_next_nil b unread
    obtain ⟨source, events, behind, turn⟩ :=
      next_at_end opened (held ▸ back) (congrArg Turn.answer still)
    obtain rfl : source = t.source := behind.elim id fun moved => moved.trans (congrArg _ still)
    rw [turn]
    refine ⟨.ended, rfl, opened, ?_⟩
    rw [Item.chars, List.append_nil, unread]
    exact .ended s parts (.inl rfl)

theorem parts_reads (h : Parts v e t) (bs : List Bookmarks) :
    Parts v (e ++ (t.reads bs).1.filterMap Run.char?) (t.reads bs).2 := by
  induction bs generalizing t e with
  | nil =>
    have none : (t.reads []).1.filterMap Run.char? = [] := rfl
    rw [none, List.append_nil]
    exact h
  | cons b bs ih =>
    obtain ⟨i, answer, later⟩ := parts_next h b
    have first : (t.reads (b :: bs)).1.filterMap Run.char? =
        i.chars ++ ((t.next b).state.reads bs).1.filterMap Run.char? := by
      rw [reads, answer]
      cases i <;> rfl
    rw [first, ← List.append_assoc]
    exact ih later

/-- The answers to any number of reads of a text that comes to its end. -/
theorem reads_accepted {cs : List Char} {u : Translator TextSource} (yields : Yields b t cs u)
    (done : Finished u) (k : Nat) : (t.reads (List.replicate k b)).1 =
      answers (cs.take k) ++ List.replicate (k - cs.length) (.ok .ended) := by
  have all : t.reads (List.replicate cs.length b) = (answers cs, u) := yields
  rcases Nat.le_total k cs.length with few | many
  · obtain ⟨m, rest⟩ := Nat.exists_eq_add_of_le few
    rw [rest, ← List.replicate_append_replicate, reads_append] at all
    have front := congrArg (·.take k) (congrArg Prod.fst all)
    have none : k - cs.length = 0 := Nat.sub_eq_zero_of_le few
    rw [List.take_left' (by rw [length_reads, List.length_replicate])] at front
    rw [front, none, List.replicate_zero, List.append_nil, answers, answers, List.map_take]
  · obtain ⟨m, rfl⟩ := Nat.exists_eq_add_of_le many
    rw [← List.replicate_append_replicate, reads_append, all, reads_finished done,
      List.length_replicate, List.take_of_length_le many, Nat.add_sub_cancel_left]

/-- The source that is left is read on by a new translator, and only what was held back is missing
from what the two have read. What is held back stands behind a backslash that opens no escape. -/
structure Resumes (b : Bookmarks) (text out : String) (e : List Char)
    (t : Translator TextSource) : Prop where
  rest : ∃ rest, translate? t.source.remaining = some rest ∧
    out.toList = e ++ (t.heldChars ++ rest.toList) ∧
    ∀ out', ((ofSource t.source).readAll b out').answer = (.ok rest.length, out' ++ rest)
  held : t.heldChars ≠ [] → ∃ (ps : List Piece) (c : Char), c ≠ 'u' ∧ t.heldChars = [c] ∧
    text.toList = ps.flatMap Piece.text ++ '\\' :: c :: t.source.unread ∧
    e = ps.flatMap Piece.meaning ++ ['\\']

theorem resumes_of_parts {text out : String} (accepted : translate? text = some out)
    (h : Parts text.toList e t) : Resumes b text out e t := by
  obtain ⟨opened, parted⟩ := h
  obtain ⟨s, r, whole, rest, meaning⟩ := parted.meaning
  have same : out = String.ofList s.meaning :=
    Option.some.inj (accepted.symm.trans (translate?_of_spelling s whole))
  constructor
  · refine ⟨String.ofList r.meaning, translate?_of_spelling r rest, ?_, ?_⟩
    · rw [same, String.toList_ofList, String.toList_ofList, meaning]
      rfl
    · intro out'
      have ready : Ready (ofSource t.source) r.text := ⟨rfl, rfl, rest.symm⟩
      rw [readAll_spelling b r ready, ← String.length_toList, String.toList_ofList]
  · intro back
    rw [heldChars] at back ⊢
    generalize held : t.held = i at back parted ⊢
    generalize unread : t.source.unread = w at parted ⊢
    cases parted with
    | between ps s parts => exact absurd rfl back
    | amid ps c other s parts => exact ⟨ps, c, other, rfl, parts, rfl⟩
    | ended s parts none => rcases none with rfl | rfl <;> exact absurd rfl back

/-- A run that comes short has met an answer that it does not read past. -/
theorem stop_of_short {past : Failure → Bool} {n : Nat} {as : List (Except Failure Item)}
    (h : Run.Stretch past n as) (short : as.length < n) : ∃ a ∈ as, Run.readsOn past a = false := by
  induction h with
  | full => cases short
  | more on later ih =>
    obtain ⟨a, mem, off⟩ := ih (Nat.lt_of_succ_lt_succ short)
    exact ⟨a, List.mem_cons_of_mem _ mem, off⟩
  | last off => exact ⟨_, List.mem_cons_self, off⟩

/-- A run over an accepted text comes short only at the end of the text. -/
theorem take_of_stretch {past : Failure → Bool} {n : Nat} {cs : List Char}
    {as : List (Except Failure Item)} (h : Run.Stretch past n as)
    (same : as = answers (cs.take as.length) ++
      List.replicate (as.length - cs.length) (.ok .ended)) : cs.take as.length = cs.take n := by
  rcases Nat.lt_or_eq_of_le h.length_le with short | full
  · obtain ⟨a, mem, off⟩ := stop_of_short h short
    have long : cs.length ≤ as.length := by
      by_contra fewer
      have none : as.length - cs.length = 0 := by omega
      rw [none, List.replicate_zero, List.append_nil] at same
      rw [same] at mem
      obtain ⟨c, -, rfl⟩ := List.mem_map.mp mem
      cases off
    have longer : cs.length ≤ n := Nat.le_trans long (Nat.le_of_lt short)
    rw [List.take_of_length_le long, List.take_of_length_le longer]
  · rw [full]

theorem filterMap_reads (cs : List Char) (k : Nat) :
    (answers cs ++ List.replicate k (Except.ok Item.ended)).filterMap Run.char? = cs := by
  have ends : (List.replicate k (.ok .ended : Except Failure Item)).filterMap Run.char? = [] := by
    simp [Run.char?]
  rw [List.filterMap_append, filterMap_answers, ends, List.append_nil]

theorem reads_of_accepted (b : Bookmarks) {text out : String}
    (accepted : translate? text = some out) (n : Nat) :
    ((ofSource (TextSource.ofText text)).reads (List.replicate n b)).1 =
        answers (out.toList.take n) ++ List.replicate (n - out.toList.length) (.ok .ended) ∧
      Parts text.toList (out.toList.take n)
        ((ofSource (TextSource.ofText text)).reads (List.replicate n b)).2 := by
  obtain ⟨s, whole⟩ : ∃ s : Spelling, s.text = text.toList := by
    by_contra unspelled
    rw [translate?_eq_none unspelled] at accepted
    cases accepted
  obtain rfl := Option.some.inj ((translate?_of_spelling s whole).symm.trans accepted)
  have ready := ready_ofText text
  rw [← whole] at ready
  obtain ⟨u, yields, done⟩ := yields_spelling b s ready
  have answered := reads_accepted yields ⟨done.opened, done.held, TextSource.ended done.ahead⟩ n
  have fresh : Parts text.toList [] (ofSource (TextSource.ofText text)) := by
    have between := Parted.between [] s whole.symm
    rw [← ready.ahead] at between
    exact ⟨rfl, between⟩
  have later := parts_reads fresh (List.replicate n b)
  rw [answered, filterMap_reads] at later
  rw [String.toList_ofList]
  exact ⟨answered, later⟩

/-- Let a text be accepted, and let so many characters be read of it, by a translator that is taken
apart then or by one that its source is only lent to. Its source resumes what it has left. -/
theorem resumes_anywhere (b : Bookmarks) {text out : String} (accepted : translate? text = some out)
    (k : Nat) :
    let t := ofSource (TextSource.ofText text)
    let owned := t.reads (List.replicate k b)
    let lent := t.run b Failure.isMalformed none k
    (owned.1 = answers (out.toList.take k) ++ List.replicate (k - out.length) (.ok .ended) ∧
      Resumes b text out (out.toList.take k) owned.2) ∧
    lend b (TextSource.ofText text) k false = ⟨lent.answers, lent.state.source, lent.events⟩ ∧
      lent.chars.toList = out.toList.take k ∧
      Resumes b text out (out.toList.take k) lent.state := by
  intro t owned lent
  obtain ⟨answered, parts⟩ := reads_of_accepted b accepted k
  rw [String.length_toList] at answered
  refine ⟨⟨answered, resumes_of_parts accepted parts⟩, rfl, ?_⟩
  obtain ⟨as, taken, stretch, reads⟩ := run_takes b t Failure.isMalformed k
  obtain ⟨answered, parts⟩ := reads_of_accepted b accepted as.length
  rw [reads] at answered parts
  have same := take_of_stretch stretch answered
  rw [same] at answered parts
  refine ⟨?_, resumes_of_parts accepted parts⟩
  have chars := congrArg (List.filterMap Run.char?) answered
  rw [filterMap_reads] at chars
  rw [Run.chars, Array.toList_filterMap, taken]
  exact chars

/-- Behind the backslash one character is held back, and only that is lost. -/
theorem resumes_behind_backslash :
    let u := ((ofSource (TextSource.ofText "\\n\\u0041")).reads [{}]).2
    translate? "\\n\\u0041" = some "\\nA" ∧ u.heldChars = ['n'] ∧
      Resumes {} "\\n\\u0041" "\\nA" ['\\'] u := by
  intro u
  have plain : ¬ IsHigh 0x41 ∧ ¬ IsLow 0x41 := by
    unfold IsHigh IsLow
    decide
  let letter : Escape :=
    ⟨0, [⟨'0', by decide⟩, ⟨'0', by decide⟩, ⟨'4', by decide⟩, ⟨'1', by decide⟩], rfl⟩
  have accepted : translate? "\\n\\u0041" = some "\\nA" :=
    translate?_of_spelling ⟨[.literal 'n' (by decide), .unit letter plain.1 plain.2], false⟩ rfl
  obtain ⟨⟨-, resumes⟩, -⟩ := resumes_anywhere {} accepted 1
  have ready := ready_ofText "\\n\\u0041"
  obtain ⟨source, used, -, -, -, turn⟩ := next_of_ready {} ready
  have held : u.held = some (.char 'n') := congrArg (·.state.held) turn
  refine ⟨accepted, ?_, resumes⟩
  rw [heldChars, held]
  rfl

end Translator
end EscapedText
