import EscapedText.Proofs.Coordinates
import EscapedText.Proofs.Places
import EscapedText.Proofs.TextReading
import Mathlib.Data.List.Forall2

/-!
The account of a text. Behind every act, what the source has given out is the raw text of the
answers so far, in order, and of what is held back. The raw position and the cursor of the source,
moved in different places, both stand behind just that.
-/
namespace EscapedText

/-- The raw text that an answer takes up, apart from what is given back for the next read. -/
inductive Raw : List Char → Except Failure Item → Prop where
  | verbatim (c : Char) : Raw [c] (.ok (.char c))
  | unit (e : Escape) (high : ¬ IsHigh e.value) (low : ¬ IsLow e.value) :
    Raw e.text (.ok (.char (e.char high low)))
  | pair (e f : Escape) (high : IsHigh e.value) (low : IsLow f.value) :
    Raw (e.text ++ f.text) (.ok (.char (e.pair f high low)))
  | ended : Raw [] (.ok .ended)
  | short (s : Stub) (i : Item) (p : Position) :
    Raw s.text (.error (.refused (.malformed p (.missingDigit i))))
  | shortLow (e : Escape) (s : Stub) (i : Item) (p : Position) (h : IsHigh e.value) :
    Raw (e.text ++ s.text) (.error (.refused (.malformed p (.missingDigit i))))
  | alone (e : Escape) (p : Position) (h : IsHigh e.value ∨ IsLow e.value) :
    Raw e.text (.error (.refused (.malformed p (.unpaired e.unit))))
  | slash (e : Escape) (p : Position) (h : IsHigh e.value) :
    Raw (e.text ++ ['\\']) (.error (.refused (.malformed p (.unpaired e.unit))))
  | twice (e f : Escape) (p : Position) (h : IsHigh e.value) (hf : IsHigh f.value) :
    Raw (e.text ++ f.text) (.error (.refused (.malformed p (.unpaired e.unit))))
  | closed : Raw [] (.error (.refused .closed))

/-- The raw text of what is held back. -/
def Kept (kept : List Char) : Option Item → Prop
  | none => kept = []
  | some i => Raw kept (.ok i)

theorem kept_first (v : List Char) :
    v = v.take 1 ++ v.tail ∧ Kept (v.take 1) (some (.first v)) := by
  cases v with
  | nil => exact ⟨rfl, .ended⟩
  | cons c v => exact ⟨rfl, .verbatim c⟩

theorem broken_raw {v : List Char} {d : Defect} {held : Option Item} {rest : List Char}
    (h : Broken v d held rest) :
    ∃ raw kept, v = raw ++ (kept ++ rest) ∧ Kept kept held ∧
      ∀ p, Raw raw (.error (.refused (.malformed p d))) := by
  cases h with
  | @short s v hs =>
    obtain ⟨parts, kept⟩ := kept_first v
    exact ⟨s.text, _, by rw [← parts], kept, .short s _⟩
  | low e _ he => exact ⟨e.text, [], rfl, rfl, fun p => .alone e p (.inr he)⟩
  | @alone e v he hv =>
    obtain ⟨parts, kept⟩ := kept_first v
    exact ⟨e.text, _, by rw [← parts], kept, fun p => .alone e p (.inl he)⟩
  | @slash e v he hv =>
    obtain ⟨parts, kept⟩ := kept_first v
    refine ⟨e.text ++ ['\\'], _, ?_, kept, fun p => .slash e p he⟩
    rw [← parts, List.append_assoc]
    rfl
  | @shortLow e s v he hs =>
    obtain ⟨parts, kept⟩ := kept_first v
    refine ⟨e.text ++ s.text, _, ?_, kept, fun p => .shortLow e s _ p he⟩
    rw [← parts, List.append_assoc]
  | unit e f _ he high low =>
    exact ⟨e.text, f.text, rfl, .unit f high low, fun p => .alone e p (.inl he)⟩
  | high e f _ he hf =>
    exact ⟨e.text ++ f.text, [], (List.append_assoc ..).symm, rfl, fun p => .twice e f p he hf⟩

/-- `taken` is the raw text of the answers `said`, in order, and of what is held back. -/
def Balanced (taken : List Char) (said : List (Except Failure Item)) (held : Option Item) : Prop :=
  ∃ raws kept, taken = raws.flatten ++ kept ∧ List.Forall₂ Raw raws said ∧ Kept kept held

section Balanced

variable {taken : List Char} {said : List (Except Failure Item)}

theorem forall₂_concat {raws : List (List Char)} {raw : List Char} {a : Except Failure Item}
    (h : List.Forall₂ Raw raws said) (h' : Raw raw a) :
    List.Forall₂ Raw (raws ++ [raw]) (said ++ [a]) :=
  List.rel_append h (.cons h' .nil)

theorem balanced_taken {raw kept : List Char} {a : Except Failure Item} {held : Option Item}
    (h : Balanced taken said none) (answer : Raw raw a) (back : Kept kept held) :
    Balanced (taken ++ (raw ++ kept)) (said ++ [a]) held := by
  obtain ⟨raws, _, rfl, answers, rfl⟩ := h
  refine ⟨raws ++ [raw], kept, ?_, forall₂_concat answers answer, back⟩
  simp

theorem balanced_given {i : Item} (h : Balanced taken said (some i)) :
    Balanced taken (said ++ [.ok i]) none := by
  obtain ⟨raws, kept, rfl, answers, back⟩ := h
  refine ⟨raws ++ [kept], [], ?_, forall₂_concat answers back, rfl⟩
  simp

theorem balanced_closed {held : Option Item} (h : Balanced taken said held) :
    Balanced taken (said ++ [.error (.refused .closed)]) held := by
  obtain ⟨raws, kept, rfl, answers, back⟩ := h
  refine ⟨raws ++ [[]], kept, ?_, forall₂_concat answers .closed, back⟩
  simp

end Balanced

namespace Translator

variable {σ : Type} {b : Bookmarks}

theorem through_raw {v rest : List Char} {o : Outcome} (h : Scan.fresh.through v = (o, rest)) :
    ∃ raw kept, v = raw ++ (kept ++ rest) ∧ Kept kept o.held ∧
      ∀ (b : Bookmarks) (t : Translator σ) (events : Array Event),
        Raw raw (settle b t events o).answer := by
  rcases begins v with rfl | rfl | ⟨p, w, rfl⟩ | ⟨d, held, rest', broken⟩
  · cases h
    exact ⟨[], [], rfl, rfl, fun _ _ _ => .ended⟩
  · cases h
    exact ⟨['\\'], [], rfl, .ended, fun _ _ _ => .verbatim '\\'⟩
  · rw [Scan.through_piece] at h
    cases h
    cases p with
    | plain c _ => exact ⟨[c], [], rfl, rfl, fun _ _ _ => .verbatim c⟩
    | literal c _ => exact ⟨['\\'], [c], rfl, .verbatim c, fun _ _ _ => .verbatim '\\'⟩
    | unit e high low => exact ⟨e.text, [], rfl, rfl, fun _ _ _ => .unit e high low⟩
    | pair e f high low =>
      exact ⟨e.text ++ f.text, [], rfl, rfl, fun _ _ _ => .pair e f high low⟩
  · rw [Scan.through_broken broken] at h
    cases h
    obtain ⟨raw, kept, parts, back, refused⟩ := broken_raw broken
    exact ⟨raw, kept, parts, back, fun _ _ _ => refused _⟩

theorem settle_rest (t : Translator σ) (free : t.held = none) (events : Array Event)
    (o : Outcome) :
    (settle b t events o).state.position = t.position ∧
      (settle b t events o).state.held = o.held := by
  cases o with
  | plain i held => exact ⟨rfl, rfl⟩
  | decoded c => exact ⟨rfl, free⟩
  | broken d held => exact ⟨rfl, rfl⟩

/-- `t` has taken `taken` of a text, and has given the answers `said` for it. What was held back
when it was closed is gone, and still accounted for. -/
structure Accounts (text : String) (t : Translator TextSource)
    (said : List (Except Failure Item)) (taken : List Char) : Prop where
  source : t.source.text = text
  whole : text.toList = taken ++ t.source.unread
  position : t.position = Position.start.past taken
  ledger : ∃ held, Balanced taken said held ∧ (t.closed = false → t.held = held)

variable {text : String} {t : Translator TextSource} {said : List (Except Failure Item)}
  {taken : List Char}

theorem accounts_ofText (text : String) : Accounts text (ofSource (.ofText text)) [] [] := by
  have balanced : Balanced [] [] none := ⟨[], [], rfl, .nil, rfl⟩
  obtain ⟨opened, free, ahead⟩ := ready_ofText text
  refine ⟨rfl, ?_, rfl, none, balanced, fun _ => free⟩
  rw [ahead, List.nil_append]

theorem accounts_scanned (h : Accounts text t said taken) (opened : t.closed = false)
    (free : t.held = none) (b : Bookmarks) :
    ∃ more, Accounts text (t.next b).state (said ++ [(t.next b).answer]) (taken ++ more) := by
  obtain ⟨held, balanced, same⟩ := h.ledger
  obtain rfl := free.symm.trans (same opened)
  obtain ⟨source, used, parts, unmoved, ahead, turn⟩ := next_of_ready b ⟨opened, free, rfl⟩
  obtain ⟨⟨o, rest⟩, through⟩ : ∃ both, Scan.fresh.through t.source.unread = both := ⟨_, rfl⟩
  rw [through] at parts ahead turn
  obtain ⟨raw, kept, parts', back, answer⟩ := through_raw (σ := TextSource) through
  -- The scan has used up what the answer stands for and what it gave back.
  obtain rfl : used = raw ++ kept := by
    rw [parts, ← List.append_assoc] at parts'
    exact List.append_cancel_right parts'
  let u : Translator TextSource := { t with source, position := t.position.past (raw ++ kept) }
  obtain ⟨from', -⟩ := settle_state (b := b) (t := u) #[] o
  obtain ⟨position, held⟩ := settle_rest (b := b) u free #[] o
  refine ⟨raw ++ kept, ?_⟩
  rw [turn]
  refine ⟨?_, ?_, ?_, o.held, balanced_taken balanced (answer b u #[]) back, fun _ => held⟩
  · rw [from']
    exact unmoved.trans h.source
  · rw [from', ahead, List.append_assoc, ← parts]
    exact h.whole
  · rw [position, Position.past_append, ← h.position]

theorem accounts_next (h : Accounts text t said taken) (b : Bookmarks) :
    ∃ more, Accounts text (t.next b).state (said ++ [(t.next b).answer]) (taken ++ more) := by
  obtain ⟨held, balanced, same⟩ := h.ledger
  -- Only a scan takes more of the text: a closed translator takes nothing, and what is held has
  -- been taken before.
  cases opened : t.closed with
  | true =>
    have turn : t.next b = ⟨.error (.refused .closed), t, #[]⟩ := by simp [next, opened]
    refine ⟨[], ?_⟩
    rw [turn, List.append_nil]
    exact { h with ledger := ⟨held, balanced_closed balanced, same⟩ }
  | false =>
    cases kept : t.held with
    | none => exact accounts_scanned h opened kept b
    | some i =>
      obtain rfl := kept.symm.trans (same opened)
      refine ⟨[], ?_⟩
      rw [next_of_held b opened kept, List.append_nil]
      exact { h with ledger := ⟨none, balanced_given balanced, fun _ => rfl⟩ }

theorem accounts_close (h : Accounts text t said taken) :
    Accounts text t.close.state said taken := by
  obtain ⟨held, balanced, same⟩ := h.ledger
  unfold close
  split
  · exact h
  · exact ⟨h.source, h.whole, h.position, held, balanced, nofun⟩

theorem Accounts.text_eq (h : Accounts text t said taken) :
    text = String.ofList taken ++ t.source.remaining := by
  apply String.toList_inj.mp
  rw [String.toList_append, String.toList_ofList]
  exact h.whole

theorem Accounts.offset_eq (h : Accounts text t said taken) :
    t.source.offset = (String.ofList taken).utf8ByteSize := by
  have splits := t.source.splits_remaining
  have whole := splits.eq_append.symm.trans (h.source.trans h.text_eq)
  rw [TextSource.offset_of_splits splits]
  apply congrArg String.utf8ByteSize
  apply String.toList_inj.mp
  have both := congrArg String.toList whole
  rw [String.toList_append, String.toList_append] at both
  exact List.append_cancel_right both

end Translator

namespace Session

/-- A fresh session over a text. -/
def ofText (b : Bookmarks) (text : String) : Session TextSource := ⟨b, .ofSource (.ofText text)⟩

variable {text : String} {b : Bookmarks} {h : List Act}

theorem enact_accounts (tells : (ofText b text).Tells h) :
    ∃ taken, Translator.Accounts text ((ofText b text).enact h).translator
      (h.filterMap Act.answer?) taken := by
  refine enact_keeps (P := fun u g => ∃ taken,
    Translator.Accounts text u.translator (g.filterMap Act.answer?) taken) (g := []) ?_
    ⟨[], Translator.accounts_ofText text⟩ tells
  rintro u g a ⟨taken, accounts⟩ gives
  rw [List.filterMap_append]
  cases a with
  | read a =>
    have answered : (u.translator.next u.bookmarks).answer = a := gives
    obtain ⟨more, later⟩ := Translator.accounts_next accounts u.bookmarks
    rw [answered] at later
    exact ⟨taken ++ more, later⟩
  | close =>
    refine ⟨taken, ?_⟩
    have later := Translator.accounts_close accounts
    rw [← List.append_nil (g.filterMap Act.answer?)] at later
    exact later
  | locate l | move m step =>
    refine ⟨taken, ?_⟩
    rw [← List.append_nil (g.filterMap Act.answer?)] at accounts
    exact ⟨accounts.source, accounts.whole, accounts.position, accounts.ledger⟩

/-- Behind every act of a fresh session the text splits at the cursor: the source has given out `u`,
and the raw position stands behind it. All of `u` is accounted for by the answers so far and by what
is held back, and a refusal without a locator cites the raw position that it leaves. -/
theorem history_accounts (text : String) (b : Bookmarks) (qs : List Request) :
    let s := ofText b text
    s.enact (s.history qs) = (s.performs qs).2 ∧ s.Tells (s.history qs) ∧
    ∀ g after, s.history qs = g ++ after →
      let t := (s.enact g).translator
      (∃ u, text = u ++ t.source.remaining ∧ t.source.offset = u.utf8ByteSize ∧
        t.position = ⟨1 + u.toList.count '\n', 1 + (lastLine u.toList).length, u.utf8ByteSize⟩ ∧
        ∃ held, Balanced u.toList (g.filterMap Act.answer?) held ∧
          (t.closed = false → t.held = held)) ∧
      ∀ g' p d, g = g' ++ [.read (.error (.refused (.malformed p d)))] →
        (s.enact g').translator.locator = none → p = t.position := by
  intro s
  obtain ⟨leads, tells⟩ := history_told s qs
  refine ⟨leads, tells, ?_⟩
  intro g after split t
  rw [split] at tells
  obtain ⟨told, -⟩ := tells_append.mp tells
  constructor
  · obtain ⟨taken, accounts⟩ := enact_accounts told
    refine ⟨String.ofList taken, accounts.text_eq, accounts.offset_eq, ?_, ?_⟩
    · rw [String.toList_ofList, ← Position.past_start]
      exact accounts.position
    · rw [String.toList_ofList]
      exact accounts.ledger
  · rintro g' p d rfl none
    have place := refused_place told
    rw [← enact_locator (tells_append.mp told).1, none] at place
    exact place

end Session
end EscapedText
