import EscapedText.Proofs.Coordinates
import EscapedText.Proofs.Copying
import EscapedText.Proofs.Places

/-!
The law of the follower. Whoever copies a text with a bookmark behind it, and has refusals located
by that bookmark, reads of every refusal where its own text has come to: what the escapes looked
like, and how far the translator has read ahead, does not show. The counters of the bookmark are
those of a machine: they start anywhere, and may run over.
-/
namespace EscapedText

open Translator (answers)

namespace Position

variable {build : Build} {p q : Position} {c : Char} {cs : List Char}

/-- Only a build that checks breaks off, and only where a counter runs over. -/
theorem advance?_none (h : p.advance? build c = none) :
    build = .checking ∧ ¬(p.advance c).Fits := by
  cases build with
  | checking => exact ⟨rfl, fun fits => nomatch (if_pos fits).symm.trans h⟩
  | wrapping => contradiction

theorem fits_past? (fits : p.Fits) (h : p.past? build cs = some q) : q.Fits := by
  induction cs generalizing p with
  | nil => exact Option.some.inj h ▸ fits
  | cons c cs ih =>
    obtain ⟨r, first, rest⟩ := Option.bind_eq_some_iff.mp h
    exact ih (fits_advance? first) rest

/-- An offset grows at least as fast as a count of characters. -/
theorem length_le_offset (p : Position) (cs : List Char) : cs.length ≤ (p.past cs).offset := by
  induction cs using List.reverseRecOn with
  | nil => exact Nat.zero_le _
  | append_singleton cs c ih =>
    rw [past_concat, advance_offset, List.length_append]
    exact Nat.add_le_add ih c.utf8Size_pos

end Position

/-- The books that a copy finds at its reads: the mark stands past all characters before. -/
def Bookmarks.trail (mark : Bookmark) (b : Bookmarks) : List Char → List Bookmarks
  | [] => [b]
  | c :: cs => b :: trail mark (b.set mark ((b.get mark).advance c).reduced) cs

namespace Session

variable {σ : Type} [Source σ] {build : Build} {mark : Bookmark} {s u : Session σ}
  {es : List Char} {a : Except Failure Item} {effects : List Effect} {asked : Nat}

namespace Copies

theorem reads (copies : Copies build mark s es a effects u) :
    s.translator.reads (s.bookmarks.trail mark es) = (answers es ++ [a], u.translator) := by
  induction copies with
  | stop read stays =>
    rw [Bookmarks.trail, Translator.reads, read]
    rfl
  | char read answer moves rest ih =>
    obtain rfl := Position.advance?_reduced moves
    rw [Bookmarks.trail, Translator.reads, read, ih, answer]
    rfl

theorem logged (copies : Copies build mark s es a effects u) :
    effects.filterMap Effect.event? =
      (s.translator.reports (s.bookmarks.trail mark es)).toList := by
  induction copies with
  | stop read stays =>
    rw [Effect.events_logged, Bookmarks.trail, Translator.reports, read, Translator.reports,
      Array.append_empty]
  | char read answer moves rest ih =>
    obtain rfl := Position.advance?_reduced moves
    rw [List.filterMap_append, Effect.events_logged, List.filterMap_cons, ih, Bookmarks.trail,
      Translator.reports, read, Array.toList_append]
    rfl

/-- The mark is moved past each character. -/
theorem counted (copies : Copies build mark s es a effects u) (held : s.bookmarks.Holds mark) :
    (s.bookmarks.get mark).past? build es = some (u.bookmarks.get mark) := by
  induction copies with
  | stop read stays => rfl
  | char read answer moves rest ih =>
    have later := ih ((Bookmarks.holds_set _ _ _ _).mpr held)
    rw [Bookmarks.get_set _ _ _ held] at later
    rw [Position.past?_cons, moves]
    exact later

theorem others (copies : Copies build mark s es a effects u) (n : Bookmark) (other : n ≠ mark) :
    u.bookmarks.get n = s.bookmarks.get n := by
  induction copies with
  | stop read stays => rfl
  | char read answer moves rest ih => rw [ih, Bookmarks.get_set_of_ne _ _ _ _ (Ne.symm other)]

/-- A refusal cites the mark as it is then: no character moves a locator. -/
theorem cited (copies : Copies build mark s es a effects u)
    (located : s.translator.locator = some { Locator.bookmark mark with asked })
    {p : Position} {d : Defect} (refused : a = .error (.refused (.malformed p d))) :
    p = u.bookmarks.get mark := by
  induction copies with
  | @stop s turn read stays =>
    subst read
    have place := (Translator.next_cites s.bookmarks s.translator).place p d refused
    rw [Translator.cite, located] at place
    exact place
  | @char s u turn c q es a effects read answer moves rest ih =>
    subst read
    have same := (Translator.next_cites s.bookmarks s.translator).locator
    rw [answer] at same
    exact ih (same.trans located) refused

end Copies

/-- A copy of `s` with `mark` behind it takes the characters `es`, up to the answer `a`, has these
effects and leaves `u`. What single reads answer is copied, in front of the first answer that is no
character, unless a build that checks breaks off where a counter runs over. -/
structure Follows (build : Build) (mark : Bookmark) (s : Session σ) (es : List Char)
    (a : Except Failure Item) (effects : List Effect) (u : Session σ) : Prop where
  reads : s.translator.reads (s.bookmarks.trail mark es) = (answers es ++ [a], u.translator)
  stop : ∀ c, a = .ok (.char c) →
    build = .checking ∧ ¬((u.bookmarks.get mark).advance c).Fits
  logged : effects.filterMap Effect.event? =
    (s.translator.reports (s.bookmarks.trail mark es)).toList
  handedOn : effects.filterMap Effect.bytes? = es.map Utf8.encode
  place : u.bookmarks.get mark = ((s.bookmarks.get mark).past es).reduced
  exact : build = .checking ∨ ((s.bookmarks.get mark).past es).Fits →
    u.bookmarks.get mark = (s.bookmarks.get mark).past es
  number : build = .checking → (UInt64.ofNat es.length).toNat = es.length
  others : ∀ n, n ≠ mark → u.bookmarks.get n = s.bookmarks.get n
  cited : ∀ p d, a = .error (.refused (.malformed p d)) → p = u.bookmarks.get mark

theorem Copies.follows (copies : Copies build mark s es a effects u)
    (held : s.bookmarks.Holds mark)
    (located : s.translator.locator = some { Locator.bookmark mark with asked })
    (fits : (s.bookmarks.get mark).Fits) : s.Follows build mark es a effects u where
  reads := copies.reads
  stop c answer := Position.advance?_none (copies.last answer)
  logged := copies.logged
  handedOn := copies.bytes
  place := Position.past?_reduced fits (copies.counted held)
  exact := by
    rintro (rfl | small)
    · exact Position.past?_checking (copies.counted held)
    · rw [Position.past?_reduced fits (copies.counted held), Position.reduced_of_fits small]
  number := by
    rintro rfl
    have counted := copies.counted held
    have small := (Position.fits_past? fits counted).2.2
    rw [Position.past?_checking counted] at small
    exact UInt64.toNat_ofNat_of_lt' (Nat.lt_of_le_of_lt (Position.length_le_offset _ es) small)
  others := copies.others
  cited _ _ := copies.cited located

/-- A copy comes to an end, and it has copied what single reads answer, with the bookmark past each
character. Its refusals cite the bookmark, so from the start they cite the end of the copied text.
Whatever takes what is handed on gets just that text as UTF-8, and with nowhere to hand it to all
else is the same: the answer is the number of characters, or what cut the copy short. -/
theorem copy_law (build : Build) (held : s.bookmarks.Holds mark)
    (located : s.translator.locator = some { Locator.bookmark mark with asked })
    (fits : (s.bookmarks.get mark).Fits) :
    ∃ es a effects u, s.Follows build mark es a effects u ∧
      (s.bookmarks.get mark = .start → u.bookmarks.get mark = Position.reduced
        ⟨1 + es.count '\n', 1 + (lastLine es).length, (String.ofList es).utf8ByteSize⟩) ∧
      ∀ {m : Type → Type} [Monad m] [LawfulMonad m] (log : Event → m Unit)
        (give : List UInt8 → m Unit) (out : Option (List UInt8 → m (Except Fault Unit))),
        Accepts give out → s.copy build mark log out = do
          forM effects (Effect.perform log give)
          return (outcome a (.ofNat es.length), u) := by
  obtain ⟨es, a, effects, u, copies⟩ := exists_copies build mark s
  have follows := copies.follows held located fits
  refine ⟨es, a, effects, u, follows, ?_, ?_⟩
  · intro start
    rw [follows.place, start, Position.past_start]
  · intro m _ _ log give out accepts
    rw [copy, copyFrom_of_copies accepts copies, UInt64.zero_add]

/-- What takes all that is handed on. -/
def collect (bytes : List UInt8) : StateM (List UInt8) Unit := modify (· ++ bytes)

theorem collect_run (effects : List Effect) (old : List UInt8) :
    (forM effects (Effect.perform (fun _ => pure ()) collect)).run old =
      ((), old ++ (effects.filterMap Effect.bytes?).flatten) := by
  induction effects generalizing old with
  | nil => exact congrArg (Prod.mk ()) (List.append_nil old).symm
  | cons effect effects ih =>
    rw [List.forM_cons, StateT.run_bind]
    cases effect with
    | logged e => exact ih old
    | handedOn bytes =>
      refine (ih (old ++ bytes)).trans ?_
      rw [List.append_assoc]
      rfl

/-- A newline, and an escape that breaks off. The bookmark is on the last line that counts. -/
def newlined : Session Script where
  bookmarks := { positions := [⟨18446744073709551615, 7, 0⟩] }
  translator := (Translator.ofSource
    { entries := .ok (.char '\n') :: Script.stub.entries }).locatedBy (.bookmark ⟨0⟩)

theorem newlined_copy_law :
    newlined.bookmarks.Holds ⟨0⟩ ∧
    newlined.translator.locator = some { Locator.bookmark ⟨0⟩ with asked := 0 } ∧
    (newlined.bookmarks.get ⟨0⟩).Fits ∧
    ∃ u, u.bookmarks.get ⟨0⟩ = ⟨0, 1, 1⟩ ∧
      (newlined.copy .wrapping ⟨0⟩ (fun _ => pure ())
          (some fun bytes => do collect bytes; return .ok ())).run [] =
        ((.error (.failed (.refused (.malformed ⟨0, 1, 1⟩ (.missingDigit (.char 'x'))))), u),
          Utf8.encode '\n') := by
  have held : newlined.bookmarks.Holds ⟨0⟩ := Nat.zero_lt_one
  have located : newlined.translator.locator =
    some { Locator.bookmark ⟨0⟩ with asked := 0 } := rfl
  have fits : (newlined.bookmarks.get ⟨0⟩).Fits := by decide
  refine ⟨held, located, fits, ?_⟩
  obtain ⟨es, a, effects, u, follows, -, copied⟩ := copy_law .wrapping held located fits
  let v : Translator Script := { newlined.translator with source := .stub, position := ⟨2, 1, 1⟩ }
  have first : newlined.translator.next newlined.bookmarks = ⟨.ok (.char '\n'), v, #[]⟩ := by
    rw [Translator.next_of_free _ rfl rfl, Translator.scan_settled (i := .char '\n')
      (o := .plain (.char '\n') none) rfl rfl]
    rfl
  have second : (v.next ⟨[⟨0, 1, 1⟩]⟩).answer =
      .error (.refused (.malformed ⟨0, 1, 1⟩ (.missingDigit (.char 'x')))) :=
    Translator.next_stub (t := v) (l := .bookmark ⟨0⟩) ⟨[⟨0, 1, 1⟩]⟩ rfl rfl rfl rfl
  have moved : newlined.bookmarks.set ⟨0⟩ ((newlined.bookmarks.get ⟨0⟩).advance '\n').reduced =
      ⟨[⟨0, 1, 1⟩]⟩ := by decide
  have stops : ∀ c, a ≠ .ok (.char c) := fun c answer => nomatch (follows.stop c answer).1
  have reads := congrArg Prod.fst follows.reads
  cases es with
  | nil =>
    rw [Bookmarks.trail, Translator.reads, first] at reads
    exact absurd (List.singleton_inj.mp reads).symm (stops '\n')
  | cons c es =>
    rw [Bookmarks.trail, Translator.reads, first] at reads
    obtain ⟨gives, later⟩ := List.cons.inj reads
    obtain rfl : '\n' = c := Item.char.inj (Except.ok.inj gives)
    rw [moved] at later
    cases es with
    | cons d es =>
      have given := second.symm.trans (List.cons.inj later).1
      contradiction
    | nil =>
      obtain rfl := second.symm.trans (List.singleton_inj.mp later)
      have accepts : Accepts collect (some fun bytes => do collect bytes; return .ok ()) :=
        fun _ => rfl
      refine ⟨u, follows.place, ?_⟩
      rw [copied (fun _ => pure ()) collect _ accepts, StateT.run_bind, collect_run,
        follows.handedOn]
      rfl

end Session
end EscapedText
