import EscapedText.Proofs.Agreement
import EscapedText.Proofs.ByteReading
import EscapedText.Proofs.TextReading
import EscapedText.Session

/-!
A text in memory and its UTF-8 from a device. The one walks from character to character, the other
puts characters together from bytes that come in pieces of any length, and no translator can tell
them apart: whatever is requested of it, in whatever order, it replies the same and stands at the
same place.
-/
namespace EscapedText

/-! Sessions over sources that answer alike. -/

namespace Session

variable {σ τ : Type}

/-- What a consumer sees behind a request: the reply, the raw position, whether the translator is
closed, and the offset of the source until then. -/
structure Sight where
  reply : Reply
  position : Position
  closed : Bool
  offset : Option Nat

def sight (offset : σ → Nat) (turn : Turn (Session σ) Reply) : Sight where
  reply := turn.answer
  position := turn.state.translator.position
  closed := turn.state.translator.closed
  offset := if turn.state.translator.closed then none
    else some (offset turn.state.translator.source)

/-- The requests one after another, and what is seen behind each. -/
def serve [Source σ] (offset : σ → Nat) (s : Session σ) : List Request → List Sight
  | [] => []
  | q :: qs => sight offset (s.perform q) :: (s.perform q).state.serve offset qs

structure Like (R : σ → τ → Prop) (s : Session σ) (u : Session τ) : Prop where
  bookmarks : s.bookmarks = u.bookmarks
  translator : s.translator.Like R u.translator

variable {R : σ → τ → Prop} {s : Session σ} {u : Session τ}

theorem after_like {α : Type} {turn : Turn (Translator σ) α} {turn' : Turn (Translator τ) α}
    (h : turn.answer = turn'.answer ∧ turn.state.Like R turn'.state)
    (bookmarks : s.bookmarks = u.bookmarks) (reply : α → Reply) :
    (s.after turn reply).answer = (u.after turn' reply).answer ∧
      Like R (s.after turn reply).state (u.after turn' reply).state := by
  obtain ⟨answer, state⟩ := h
  exact ⟨congrArg reply answer, bookmarks, state⟩

variable [Source σ] [Source τ]

theorem perform_like (alike : ∀ b, Source.Alike b R)
    (closes : ∀ {s u}, R s u → (Source.close s).answer = (Source.close u).answer)
    (h : Like R s u) (q : Request) :
    (s.perform q).answer = (u.perform q).answer ∧
      Like R (s.perform q).state (u.perform q).state := by
  obtain ⟨b, t⟩ := s
  obtain ⟨b', t'⟩ := u
  obtain ⟨rfl, like⟩ := h
  cases q with
  | read follow =>
    obtain ⟨answer, state⟩ := Translator.next_like (alike b) like
    refine ⟨congrArg Reply.read answer, ?_, state⟩
    exact congrArg (Run.track follow b) answer
  | drain limit follow =>
    have run := Translator.run_like (b := b) alike like Failure.isMalformed follow limit
    refine ⟨?_, run.bookmarks, run.state⟩
    exact congrArg (fun answers => Reply.drained answers.toList) run.answers
  | readItem => exact after_like (Translator.nextItem_like (alike b) like) rfl _
  | readInto buffer => exact after_like (Translator.readInto_like alike like buffer) rfl _
  | readAll out => exact after_like (Translator.readAll_like (alike b) like out) rfl _
  | iterate n => exact after_like (Translator.iterate_like alike like n) rfl _
  | close => exact after_like (Translator.close_like closes like) rfl _
  | locate l => exact ⟨rfl, rfl, Translator.like_locatedBy like l⟩
  | move m move => exact ⟨rfl, rfl, like⟩

theorem serve_like (alike : ∀ b, Source.Alike b R)
    (closes : ∀ {s u}, R s u → (Source.close s).answer = (Source.close u).answer)
    {offset : σ → Nat} {offset' : τ → Nat} (offsets : ∀ {s u}, R s u → offset s = offset' u)
    (h : Like R s u) (qs : List Request) : s.serve offset qs = u.serve offset' qs := by
  induction qs generalizing s u with
  | nil => rfl
  | cons q qs ih =>
    obtain ⟨answer, like⟩ := perform_like alike closes h q
    have same : sight offset (s.perform q) = sight offset' (u.perform q) := by
      simp only [sight, answer, like.translator.position, ← like.translator.closed]
      cases closed : (s.perform q).state.translator.closed with
      | true => rfl
      | false => simp [offsets (like.translator.source closed)]
    rw [serve, serve, same, ih like]

end Session

/-! The two sources. -/

/-- The device has the UTF-8 of the characters still to come, and both are at the same place. -/
def Alongside (s : TextSource) (u : ByteSource) : Prop :=
  ∃ v, s.unread = v ∧ u.Serves (v.flatMap Utf8.encode) ∧ s.offset = u.offset

theorem next_alongside {s : TextSource} {u : ByteSource} (h : Alongside s u) :
    s.next.answer = u.next.answer ∧ Alongside s.next.state u.next.state := by
  obtain ⟨v, hv, serves, offset⟩ := h
  cases v with
  | nil =>
    obtain ⟨u', read, serves', offset'⟩ := ByteSource.read_ended serves
    rw [TextSource.next_of_unread_nil hv, ByteSource.next, read]
    exact ⟨rfl, [], hv, serves', offset.trans offset'.symm⟩
  | cons c v =>
    have fits : (Utf8.Segment.char c).Fits (v.flatMap Utf8.encode) := trivial
    obtain ⟨u', read, serves', offset'⟩ := ByteSource.read_segment serves fits
    obtain ⟨s', next, -, hv'⟩ := TextSource.next_of_unread_cons hv
    have size : (Utf8.Segment.char c).bytes.length = c.utf8Size := String.length_utf8EncodeChar c
    have offset'' := TextSource.offset_next hv
    rw [next] at offset'' ⊢
    rw [ByteSource.next, read]
    refine ⟨rfl, v, hv', serves', ?_⟩
    rw [offset'', offset', size, offset]

theorem alike_alongside (b : Bookmarks) : Source.Alike b Alongside where
  answer h := (next_alongside h).1
  state h := (next_alongside h).2

theorem alongside_ofText {text : String} (cut : Cut (text.toList.flatMap Utf8.encode)) :
    Alongside (.ofText text) (.ofDevice cut.device) :=
  ⟨text.toList, TextSource.unread_ofText text, ByteSource.serves_ofDevice cut, rfl⟩

/-- Over a text and over its UTF-8 in any pieces, every session sees the same. -/
theorem serve_text_eq_bytes (b : Bookmarks) (text : String)
    (cut : Cut (text.toList.flatMap Utf8.encode)) (qs : List Request) :
    (Session.mk b (.ofSource (TextSource.ofText text))).serve TextSource.offset qs =
      (Session.mk b (.ofSource (ByteSource.ofDevice cut.device))).serve ByteSource.offset qs := by
  have like := Translator.like_ofSource (alongside_ofText cut)
  apply Session.serve_like alike_alongside
  · intro s u _
    rfl
  · rintro s u ⟨v, -, -, offset⟩
    exact offset
  · exact ⟨rfl, like⟩

end EscapedText
