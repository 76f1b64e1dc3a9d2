import EscapedText.Proofs.ByteReading
import EscapedText.Proofs.Copying
import EscapedText.Proofs.Stacking

/-!
Translating bytes. Bytes lead a translator through the text they spell, or to their first damage.
So if it comes to the end at all, the bytes are the UTF-8 of a text and it has made of them what is
made of that text.
-/
namespace EscapedText

open Source (Leads Over Fails)
open Translator (Yields)

theorem Utf8.text_of_no_bytes {text : String} (h : text.toList.flatMap encode = []) :
    text = "" := by
  apply String.toList_inj.mp
  cases chars : text.toList with
  | nil => rfl
  | cons c cs =>
    rw [chars, List.flatMap_cons] at h
    exact absurd (List.append_eq_nil_iff.mp h).1 (encode_ne_nil c)

namespace ByteSource

variable {s t : ByteSource} {b : Bookmarks}

theorem next_of_read {answer : Except Fault Item} (h : s.read = (answer, t)) :
    Source.next b s = ⟨answer, t, #[]⟩ := by
  change next s = _
  rw [next, h]

theorem over_serves (h : s.Serves []) : Over b s := by
  refine Source.over_of_invariant (I := fun s : ByteSource => s.Serves []) ?_ h
  intro s h
  obtain ⟨t, read, serves, -⟩ := read_ended h
  rw [next_of_read read]
  exact ⟨rfl, serves⟩

theorem leads_segments {gs : List Utf8.Segment} (h : s.Serves (gs.flatMap Utf8.Segment.bytes))
    (all : Utf8.Segment.AllFit gs) :
    (∃ cs, gs = cs.map .char ∧ Leads b (Over b) cs s) ∨
      ∃ cs f, (∃ bs, .damaged bs ∈ gs) ∧ Leads b (Fails b f) cs s := by
  induction gs generalizing s with
  | nil => exact .inl ⟨[], rfl, over_serves h⟩
  | cons g gs ih =>
    obtain ⟨fits, later⟩ := all
    obtain ⟨t, read, serves, -⟩ := read_segment h fits
    have step : Source.next b s = ⟨answerTo s.offset g, t, #[]⟩ := next_of_read read
    cases g with
    | char c =>
      have first : (Source.next b s).answer = .ok (.char c) := congrArg Turn.answer step
      have behind : (Source.next b s).state = t := congrArg Turn.state step
      rcases ih serves later with ⟨cs, rfl, leads⟩ | ⟨cs, f, ⟨bs, damage⟩, leads⟩
      · exact .inl ⟨c :: cs, rfl, first, behind ▸ leads⟩
      · exact .inr ⟨c :: cs, f, ⟨bs, List.mem_cons_of_mem _ damage⟩, first, behind ▸ leads⟩
    | damaged bs =>
      exact .inr ⟨[], _, ⟨bs, List.mem_cons_self⟩, congrArg Turn.answer step⟩

theorem leads_chars {cs : List Char} (h : s.Serves (cs.flatMap Utf8.encode)) :
    Leads b (Over b) cs s := by
  rw [← Utf8.Segment.bytes_chars] at h
  rcases leads_segments h (Utf8.Segment.allFit_chars cs) with
    ⟨cs', same, leads⟩ | ⟨-, -, ⟨bs, damage⟩, -⟩
  · obtain rfl : cs = cs' := List.map_injective_iff.mpr (fun _ _ => Utf8.Segment.char.inj) same
    exact leads
  · obtain ⟨c, -, other⟩ := List.mem_map.mp damage
    contradiction

/-- The device brings `bytes` in pieces of any size, and is at its end then. -/
def Brings (device : List ReadStep) (bytes : List UInt8) : Prop :=
  ∃ cut : Cut bytes, device = cut.device

theorem serves_of_brings {device : List ReadStep} {v : List UInt8} (h : Brings device v) :
    (ofDevice device).Serves v := by
  obtain ⟨cut, rfl⟩ := h
  exact serves_ofDevice cut

theorem leads_text {device : List ReadStep} {text : String}
    (h : Brings device (text.toList.flatMap Utf8.encode)) :
    Leads b (Over b) text.toList (ofDevice device) :=
  leads_chars (serves_of_brings h)

theorem leads_or_fails {device : List ReadStep} {v : List UInt8} (h : Brings device v) :
    (∃ text : String, v = text.toList.flatMap Utf8.encode ∧
      Leads b (Over b) text.toList (ofDevice device)) ∨
      ∃ cs f, Leads b (Fails b f) cs (ofDevice device) := by
  obtain ⟨gs, rfl, all⟩ := Utf8.exists_segments v
  rcases leads_segments (serves_of_brings h) all with ⟨cs, rfl, leads⟩ | ⟨cs, f, -, fails⟩
  · refine .inl ⟨String.ofList cs, ?_, ?_⟩
    · rw [String.toList_ofList, Utf8.Segment.bytes_chars]
    · rw [String.toList_ofList]
      exact leads
  · exact .inr ⟨cs, f, fails⟩

end ByteSource

namespace Translator

variable {σ : Type} [Source σ] {b : Bookmarks} {s : σ} {cs ds : List Char}
  {u : Translator σ}

theorem not_ended_of_fails {f : Fault} (leads : Leads b (Fails b f) ds s)
    (yields : Yields b (ofSource s) cs u) : (u.next b).answer ≠ .ok .ended := by
  intro ended
  have free : (ofSource s).held ≠ some .ended := nofun
  -- Both readings stop at the same place, and in front of a fault that place is no end.
  obtain ⟨cs', u', yields', stopped⟩ := stopped_of_doomed ⟨rfl, free, ds, leads⟩
  have stop : ∀ c, (u'.next b).answer ≠ .ok (.char c) := by
    rcases stopped with fault | ⟨p, d, refused⟩ <;> simp [*]
  obtain ⟨-, rfl⟩ := yields_unique yields yields' (by simp [ended]) stop
  rcases stopped with fault | ⟨p, d, refused⟩
  · rw [ended] at fault
    contradiction
  · rw [ended] at refused
    contradiction

theorem translate?_of_ended {text : String} (leads : Leads b (Over b) text.toList s)
    (yields : Yields b (ofSource s) cs u) (ended : (u.next b).answer = .ok .ended) :
    translate? text = some (String.ofList cs) := by
  have stop : ∀ c, (u.next b).answer ≠ .ok (.char c) := by simp [ended]
  rcases through_or_refused leads with
    ⟨out, u', made, yields', finished⟩ | ⟨-, ds, u', p, d, yields', refused⟩
  · have last := ended_of_over finished
    obtain ⟨rfl, -⟩ := yields_unique yields yields' stop (by simp [last])
    rw [made, String.ofList_toList]
  · obtain ⟨-, rfl⟩ := yields_unique yields yields' stop (by simp [refused])
    rw [ended] at refused
    contradiction

end Translator

namespace ByteSource

variable {device : List ReadStep} {v : List UInt8} {cs : List Char} {text out : String}

theorem translate?_of_reads (h : Brings device v) (reads : Reads device cs (.ok .ended)) :
    ∃ text : String, v = text.toList.flatMap Utf8.encode ∧
      translate? text = some (String.ofList cs) := by
  obtain ⟨u, yields, ended⟩ := reads.yields
  rcases leads_or_fails h with ⟨text, whole, leads⟩ | ⟨ds, f, fails⟩
  · exact ⟨text, whole, Translator.translate?_of_ended leads yields ended⟩
  · exact absurd ended (Translator.not_ended_of_fails fails yields)

theorem reads_of_translate? (h : Brings device (text.toList.flatMap Utf8.encode))
    (made : translate? text = some out) : Reads device out.toList (.ok .ended) := by
  rcases Translator.through_or_refused (leads_text h) with
    ⟨out', u, made', yields, finished⟩ | ⟨none, -⟩
  · obtain rfl : out = out' := Option.some.inj (made.symm.trans made')
    exact ⟨⟨u, yields, Translator.ended_of_over finished⟩, nofun⟩
  · rw [made] at none
    contradiction

end ByteSource
end EscapedText
