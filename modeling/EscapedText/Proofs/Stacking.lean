import EscapedText.Proofs.Streaming
import EscapedText.Translator.Stack

/-!
Translators over translators. Each layer asks the one below it for one item at a time and may hold
an item of its own, and still a stack makes of a text what as many passes make of it, each over all
that the one before has made. If a pass is refused, so is the stack: by its top, or by a layer
below, whose refusal comes up as it was raised.
-/
namespace EscapedText

/-- What a translator makes of a text that it reads to the end. -/
def translate? (text : String) : Option String :=
  match ((Translator.ofSource (TextSource.ofText text)).readAll {} "").answer with
  | (.ok _, out) => some out
  | (.error _, _) => none

/-- `n` translations in turn. -/
def passes : Nat → String → Option String
  | 0, text => some text
  | n + 1, text => (passes n text).bind translate?

theorem translate?_of_spelling {text : String} (s : Spelling) (h : s.text = text.toList) :
    translate? text = some (String.ofList s.meaning) := by
  have ready := Translator.ready_ofText text
  rw [← h] at ready
  rw [translate?, Translator.readAll_spelling {} s ready, String.empty_append]

theorem translate?_eq_none {text : String} (h : ¬ ∃ s : Spelling, s.text = text.toList) :
    translate? text = none := by
  rcases Translator.spelled_or_refused {} (Translator.ready_ofText text) with
    spelled | ⟨cs, u, p, d, yields, refused⟩
  · exact absurd spelled h
  · rw [translate?, Translator.readAll_of_error yields refused]

open Source (Leads Over Fails)
open Translator (Yields)

/-- In front of a text, and then the end, a translator makes of it all there is or is refused. -/
theorem Translator.through_or_refused {σ : Type} [Source σ] {b : Bookmarks} {s : σ}
    {text : String} (leads : Leads b (Over b) text.toList s) :
    (∃ out u, translate? text = some out ∧ Yields b (ofSource s) out.toList u ∧ Over b u) ∨
      translate? text = none ∧ ∃ cs u p d, Yields b (ofSource s) cs u ∧
        (u.next b).answer = .error (.refused (.malformed p d)) := by
  by_cases spelled : ∃ s : Spelling, s.text = text.toList
  · obtain ⟨s, hs⟩ := spelled
    obtain ⟨u, yields, finished⟩ := yields_meaning s hs leads
    have whole := translate?_of_spelling s hs
    rw [← String.toList_ofList (l := s.meaning)] at yields
    exact .inl ⟨_, u, whole, yields, finished⟩
  · rcases spelled_or_refused b (ready_ofText text) with h | ⟨cs, u, p, d, yields, refused⟩
    · exact absurd h spelled
    · have like := like_ofText leads
      obtain ⟨u', yields', like'⟩ := yields_like Source.alike_mirrors like yields
      have answer := (next_like Source.alike_mirrors like').1
      exact .inr ⟨translate?_eq_none spelled, cs, u', p, d, yields', answer.symm.trans refused⟩

namespace Stack

/-- The translator with `n` others below it, over a text. -/
def top (text : String) (n : Nat) : Translator (Stack TextSource n) :=
  Translator.ofSource (ofSource (TextSource.ofText text) n)

/-- What reading through `n + 1` translators comes to: the end of what as many passes make, or a
malformed escape of one layer, which the layers above do not wrap again. -/
inductive Reads (b : Bookmarks) (text : String) (n : Nat) : Prop where
  | through {out : String} {u : Translator (Stack TextSource n)}
    (all : passes (n + 1) text = some out) (yields : Yields b (top text n) out.toList u)
    (finished : Over b u)
  | own {cs : List Char} {u : Translator (Stack TextSource n)} {p : Position} {d : Defect}
    (none : passes (n + 1) text = none) (yields : Yields b (top text n) cs u)
    (stop : (u.next b).answer = .error (.refused (.malformed p d)))
  | below {k : Nat} {ds : List Char} {v : Translator (Stack TextSource k)} {p : Position}
    {d : Defect} {cs : List Char} {u : Translator (Stack TextSource n)}
    (none : passes (n + 1) text = none) (lower : k < n) (yieldsBelow : Yields b (top text k) ds v)
    (raised : (v.next b).answer = .error (.refused (.malformed p d)))
    (yields : Yields b (top text n) cs u)
    (stop : (u.next b).answer = .error (.source (.refused (.malformed p d))))

variable {b : Bookmarks} {text : String} {n : Nat}

theorem reads_of_leads {w : String} (before : passes n text = some w)
    (leads : Leads b (Over b) w.toList (ofSource (TextSource.ofText text) n)) :
    Reads b text n := by
  have all : passes (n + 1) text = translate? w := by
    rw [passes, before, Option.bind_some]
  rcases Translator.through_or_refused leads with
    ⟨out, u, made, yields, finished⟩ | ⟨none, cs, u, p, d, yields, refused⟩
  · exact .through (all.trans made) yields finished
  · exact .own (all.trans none) yields refused

/-- In front of the refusal of a lower layer, the next layer comes to that or to one of its own. -/
theorem reads_of_fails {k : Nat} {ds : List Char} {v : Translator (Stack TextSource k)}
    {p : Position} {d : Defect} (before : passes n text = none) (lower : k < n)
    (yieldsBelow : Yields b (top text k) ds v)
    (raised : (v.next b).answer = .error (.refused (.malformed p d)))
    (leads : ∃ cs, Leads b (Fails b (.refused (.malformed p d))) cs
      (ofSource (TextSource.ofText text) n)) :
    Reads b text n := by
  have none : passes (n + 1) text = none := by
    rw [passes, before, Option.bind_none]
  have free : (top text n).held ≠ some .ended := by
    intro held
    contradiction
  obtain ⟨cs, u, yields, stopped⟩ := Translator.stopped_of_doomed ⟨rfl, free, leads⟩
  rcases stopped with fault | ⟨q, e, refused⟩
  · exact .below none lower yieldsBelow raised yields fault
  · exact .own none yields refused

theorem reads (b : Bookmarks) (text : String) (n : Nat) : Reads b text n := by
  induction n with
  | zero =>
    have unread := TextSource.unread_ofText text
    exact reads_of_leads rfl (Source.leads_text unread)
  | succ n ih =>
    cases ih with
    | through all yields finished =>
      exact reads_of_leads all (Translator.leads_of_yields yields finished)
    | own none yields stop =>
      have fails := congrArg Failure.passOn stop
      exact reads_of_fails none (Nat.lt_succ_self n) yields stop
        ⟨_, Translator.leads_of_yields yields fails⟩
    | below none lower yieldsBelow raised yields stop =>
      have fails := congrArg Failure.passOn stop
      exact reads_of_fails none (Nat.lt_succ_of_lt lower) yieldsBelow raised
        ⟨_, Translator.leads_of_yields yields fails⟩

/-- `n + 1` translators over a text read it to the end just when that many passes do. Else the
failure is a malformed escape of the top, or of a layer below that reports it alike by itself. -/
theorem readAll_top (b : Bookmarks) (text : String) (n : Nat) :
    (∀ count out, ((top text n).readAll b "").answer = (.ok count, out) ↔
      passes (n + 1) text = some out ∧ count = out.length) ∧
    ∀ f, ((top text n).readAll b "").answer.1 = .error f →
      (∃ p d, f = .refused (.malformed p d)) ∨
      ∃ k < n, ∃ p d, ((top text k).readAll b "").answer.1 = .error (.refused (.malformed p d)) ∧
        f = .source (.refused (.malformed p d)) ∧ f.toFault.kind = .invalidData ∧
        f.message = (Refusal.malformed p d).message := by
  cases reads b text n with
  | @through made u all yields finished =>
    rw [Translator.readAll_of_ended yields (Translator.ended_of_over finished), all,
      String.empty_append, String.ofList_toList, String.length_toList]
    constructor
    · intro count out
      constructor
      · rintro ⟨⟩
        exact ⟨rfl, rfl⟩
      · rintro ⟨⟨⟩, rfl⟩
        rfl
    · intro f failed
      contradiction
  | @own cs u p d none yields stop =>
    rw [Translator.readAll_of_error yields stop, none]
    constructor
    · intro count out
      constructor
      · intro ended
        cases ended
      · rintro ⟨done, -⟩
        contradiction
    · rintro f ⟨⟩
      exact .inl ⟨p, d, rfl⟩
  | @below k ds v p d cs u none lower yieldsBelow raised yields stop =>
    rw [Translator.readAll_of_error yields stop, none]
    constructor
    · intro count out
      constructor
      · intro ended
        cases ended
      · rintro ⟨done, -⟩
        contradiction
    · rintro f ⟨⟩
      refine .inr ⟨k, lower, p, d, ?_, rfl, rfl, rfl⟩
      rw [Translator.readAll_of_error yieldsBelow raised]

end Stack
end EscapedText
