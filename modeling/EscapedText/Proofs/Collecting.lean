import EscapedText.Proofs.ByteDelivery
import EscapedText.Proofs.Streaming

/-!
What a collector of bytes gets. It tries again after every interruption, so all that counts is what
the translator comes to in that way: characters, and then the end for good or another failure. The
collector has their bytes and that ending, whatever sizes its buffers take.
-/
namespace EscapedText

namespace Translator

variable {σ : Type} [Source σ] {b : Bookmarks} {t u : Translator σ}

/-- What reading comes to if it tries again whenever it was interrupted. -/
inductive Comes (b : Bookmarks) : Translator σ → List Char → Except Failure Unit → Prop where
  | ended {t : Translator σ} (finished : Source.Over b t) : Comes b t [] (.ok ())
  | failed {t : Translator σ} {f : Failure} (answer : (t.next b).answer = .error f)
    (final : f.toFault.kind ≠ .interrupted) : Comes b t [] (.error f)
  | again {t : Translator σ} {f : Failure} {cs : List Char} {last : Except Failure Unit}
    (answer : (t.next b).answer = .error f) (retry : f.toFault.kind = .interrupted)
    (later : Comes b (t.next b).state cs last) : Comes b t cs last
  | char {t : Translator σ} {c : Char} {cs : List Char} {last : Except Failure Unit}
    (answer : (t.next b).answer = .ok (.char c))
    (later : Comes b (t.next b).state cs last) : Comes b t (c :: cs) last

variable {cs : List Char} {last : Except Failure Unit}

theorem Comes.of_turn {c : Char} {events : Array Event}
    (turn : t.next b = ⟨.ok (.char c), u, events⟩) (later : Comes b u cs last) :
    Comes b t (c :: cs) last := by
  apply Comes.char
  · rw [turn]
  · rw [turn]
    exact later

theorem comes_of_char {c : Char} (h : Comes b t cs last)
    (answer : (t.next b).answer = .ok (.char c)) :
    ∃ rest, cs = c :: rest ∧ Comes b (t.next b).state rest last := by
  cases h with
  | ended finished =>
    rw [ended_of_over finished] at answer
    cases answer
  | failed failed final =>
    rw [failed] at answer
    cases answer
  | again failed retry later =>
    rw [failed] at answer
    cases answer
  | @char _ d rest _ first later =>
    rw [first] at answer
    cases answer
    exact ⟨rest, rfl, later⟩

theorem comes_of_ended (h : Comes b t cs last) (answer : (t.next b).answer = .ok .ended) :
    cs = [] ∧ last = .ok () ∧ Comes b (t.next b).state [] (.ok ()) := by
  cases h with
  | ended finished => exact ⟨rfl, rfl, .ended fun n => finished (n + 1)⟩
  | failed failed final =>
    rw [failed] at answer
    cases answer
  | again failed retry later =>
    rw [failed] at answer
    cases answer
  | char first later =>
    rw [first] at answer
    cases answer

theorem comes_of_error {f : Failure} (h : Comes b t cs last)
    (answer : (t.next b).answer = .error f) :
    f.toFault.kind = .interrupted ∧ Comes b (t.next b).state cs last ∨
      f.toFault.kind ≠ .interrupted ∧ cs = [] ∧ last = .error f := by
  cases h with
  | ended finished =>
    rw [ended_of_over finished] at answer
    contradiction
  | failed failed final =>
    rw [failed] at answer
    cases answer
    exact .inr ⟨final, rfl, rfl⟩
  | again failed retry later =>
    rw [failed] at answer
    cases answer
    exact .inl ⟨retry, later⟩
  | char first later =>
    rw [first] at answer
    contradiction

theorem comes_of_yields {ds : List Char} (h : Comes b t cs last) (yields : Yields b t ds u) :
    ∃ rest, cs = ds ++ rest ∧ Comes b u rest last := by
  induction ds generalizing t cs with
  | nil =>
    obtain rfl : t = u := congrArg Prod.snd yields
    exact ⟨cs, rfl, h⟩
  | cons d ds ih =>
    obtain ⟨first, later⟩ := yields_cons_iff.mp yields
    obtain ⟨rest, rfl, comes⟩ := comes_of_char h first
    obtain ⟨rest', rfl, comes'⟩ := ih comes later
    exact ⟨rest', rfl, comes'⟩

end Translator

open Translator (Comes answers)

namespace ByteView

variable {σ : Type} [Source σ] {b : Bookmarks} {v : ByteView σ} {bs : List UInt8}
  {last : Except Fault Unit}

/-- What a view brings to a reader that tries again whenever it was interrupted. -/
inductive Brings (b : Bookmarks) : ByteView σ → List UInt8 → Except Fault Unit → Prop where
  | ready {v : ByteView σ} {cs : List Char} {last : Except Failure Unit}
    (now : v.deferred = none) (comes : Comes b v.translator cs last) :
    Brings b v (v.kept ++ cs.flatMap Utf8.encode) (Failure.passOn last)
  | again {v : ByteView σ} {f : Failure} {cs : List Char} {last : Except Failure Unit}
    (first : v.deferred = some f) (nil : v.kept = []) (retry : f.toFault.kind = .interrupted)
    (comes : Comes b v.translator cs last) :
    Brings b v (cs.flatMap Utf8.encode) (Failure.passOn last)
  | failed {v : ByteView σ} {f : Failure} (first : v.deferred = some f)
    (final : f.toFault.kind ≠ .interrupted) : Brings b v [] (.error f.toFault)

/-- How one read gets on with what a view brings. -/
inductive Leaves (b : Bookmarks) (bs : List UInt8) (last : Except Fault Unit) :
    Except Fault (Array UInt8) → ByteView σ → Prop where
  | part {v : ByteView σ} {bytes : Array UInt8} {rest : List UInt8} (some : bytes.size ≠ 0)
    (whole : bs = bytes.toList ++ rest) (later : Brings b v rest last) :
    Leaves b bs last (.ok bytes) v
  | ended {v : ByteView σ} (nil : bs = []) (ok : last = .ok ()) : Leaves b bs last (.ok #[]) v
  | again {v : ByteView σ} {f : Fault} (retry : f.kind = .interrupted)
    (later : Brings b v bs last) : Leaves b bs last (.error f) v
  | failed {v : ByteView σ} {f : Fault} (final : f.kind ≠ .interrupted) (nil : bs = [])
    (error : last = .error f) : Leaves b bs last (.error f) v

theorem leaves_of_filled {ready : List UInt8} {limit n : Nat} {t : Translator σ}
    {took : List (Except Failure Item)} {answer : Except Fault (Array UInt8)} {cs : List Char}
    {last : Except Failure Unit} (filled : Filled ready limit v took answer) (room : 0 < limit)
    (reads : t.reads (List.replicate n b) = (took, v.translator)) (comes : Comes b t cs last) :
    Leaves b (ready ++ cs.flatMap Utf8.encode) (Failure.passOn last) answer v := by
  cases filled with
  | full ds size now order =>
    have yields := Translator.yields_of_reads reads
    obtain ⟨rest, rfl, behind⟩ := Translator.comes_of_yields comes yields
    refine .part (by omega) ?_ (.ready now behind)
    rw [List.flatMap_append, ← List.append_assoc, ← order, List.append_assoc]
  | @ended ds bytes size now nil order =>
    obtain ⟨w, yields, answer, state⟩ := Translator.yields_of_reads_append reads
    obtain ⟨rest, rfl, behind⟩ := Translator.comes_of_yields comes yields
    obtain ⟨rfl, rfl, finished⟩ := Translator.comes_of_ended behind answer
    rw [state] at finished
    rw [List.append_nil, ← order]
    by_cases some : bytes.size = 0
    · obtain rfl : bytes = #[] := Array.eq_empty_of_size_eq_zero some
      exact .ended rfl rfl
    · refine .part some (List.append_nil _).symm ?_
      have later := Brings.ready now finished
      rw [nil] at later
      exact later
  | @stopped ds bytes f size any later nil order =>
    obtain ⟨w, yields, answer, state⟩ := Translator.yields_of_reads_append reads
    obtain ⟨rest, rfl, behind⟩ := Translator.comes_of_yields comes yields
    have whole : ready ++ (ds ++ rest).flatMap Utf8.encode =
        bytes.toList ++ rest.flatMap Utf8.encode := by
      rw [List.flatMap_append, ← List.append_assoc, order]
    refine .part (Nat.ne_of_gt any) whole ?_
    · rcases Translator.comes_of_error behind answer with ⟨retry, behind⟩ | ⟨final, rfl, rfl⟩
      · rw [state] at behind
        exact .again later nil retry behind
      · exact .failed later final
  | @failed f size first now nil =>
    have single : t.reads (List.replicate n b) = (answers [] ++ [.error f], v.translator) := reads
    obtain ⟨w, yields, answer, state⟩ := Translator.yields_of_reads_append single
    obtain rfl : t = w := congrArg Prod.snd yields
    rw [first, List.nil_append]
    rcases Translator.comes_of_error comes answer with ⟨retry, comes⟩ | ⟨final, rfl, rfl⟩
    · refine .again retry ?_
      rw [state] at comes
      have later := Brings.ready now comes
      rw [nil] at later
      exact later
    · exact .failed final rfl rfl

theorem leaves_read (h : Brings b v bs last) {room : Nat} (some : 0 < room) :
    Leaves b bs last (v.read b room).answer (v.read b room).state := by
  cases h with
  | ready now comes =>
    have read : v.read b room = v.fill b room #[] #[] := by rw [read, now]
    obtain ⟨n, state, filled, -⟩ := fill_filled (b := b) room #[] #[] now
    rw [← read] at state filled
    have reads : v.translator.reads (List.replicate n b) =
        ((v.translator.reads (List.replicate n b)).1, (v.read b room).state.translator) :=
      Prod.ext rfl state.symm
    have room' : 0 < (#[] : Array UInt8).size + room := by
      rw [List.size_toArray, List.length_nil, Nat.zero_add]
      exact some
    exact leaves_of_filled filled room' reads comes
  | again first nil retry comes =>
    rw [read, first]
    refine .again retry ?_
    have later := Brings.ready (v := { v with deferred := none }) rfl comes
    have nil' : kept { v with deferred := none } = [] := nil
    rw [nil'] at later
    exact later
  | failed first final =>
    rw [read, first]
    exact .failed final rfl rfl

end ByteView

namespace Growth

/-- The next buffer has room for something. -/
def Roomy : Growth → Prop
  | probe => True
  | store _ _ limit => probeSize ≤ limit

variable {g : Growth}

theorem offer_pos (h : g.Roomy) : 0 < g.offer := by
  cases g with
  | probe => exact Nat.le_of_ble_eq_true rfl
  | store filled capacity limit =>
    have room : probeSize ≤ (store filled capacity limit).offer := probeSize_le_offer h
    exact Nat.lt_of_lt_of_le (Nat.le_of_ble_eq_true rfl) room

theorem roomy_after (n : Nat) (h : g.Roomy) : (g.after n).Roomy := by
  cases g with
  | probe => exact Nat.le_of_ble_eq_true rfl
  | store filled capacity limit =>
    have limit' : probeSize ≤ limit := h
    simp only [after, Roomy]
    split <;> omega

end Growth

namespace ByteView

variable {σ : Type} [Source σ] {b : Bookmarks} {last : Except Fault Unit}

/-- A collector has all that a view brings. -/
theorem collect_brings (v : ByteView σ) (g : Growth) (roomy : g.Roomy) (out : Array UInt8)
    (events : Array Event) :
    ∀ {bs : List UInt8}, Brings b v bs last →
      (v.collect b g out events).answer = (last, out ++ bs.toArray) := by
  fun_induction collect b v g out events
  case case1 v g out events turn all bytes hr hb =>
    intro bs h
    have leaves := leaves_read h (Growth.offer_pos roomy)
    rw [hr] at leaves
    cases leaves with
    | part some => exact absurd hb some
    | ended nil ok => simp [nil, ok]
  case case2 v g out events turn all bytes hr hb hlt ih =>
    intro bs h
    have leaves := leaves_read h (Growth.offer_pos roomy)
    rw [hr] at leaves
    cases leaves with
    | part some whole later =>
      rw [ih (Growth.roomy_after _ roomy) later, whole]
      simp [← List.append_toArray]
    | ended => exact absurd rfl hb
  case case3 v g out events turn all f hr hf hlt ih =>
    intro bs h
    have leaves := leaves_read h (Growth.offer_pos roomy)
    rw [hr] at leaves
    cases leaves with
    | again retry later => exact ih roomy later
    | failed final => exact absurd hf final
  case case4 v g out events turn all f hr hf =>
    intro bs h
    have leaves := leaves_read h (Growth.offer_pos roomy)
    rw [hr] at leaves
    cases leaves with
    | again retry => exact absurd retry hf
    | failed final nil error => simp [nil, error]

theorem readToEnd_comes {t : Translator σ} {cs : List Char} {last : Except Failure Unit}
    (h : Comes b t cs last) :
    ((ofTranslator t).readToEnd b).answer =
      (Failure.passOn last, (cs.flatMap Utf8.encode).toArray) := by
  have brings : Brings b (ofTranslator t) ((ofTranslator t).kept ++ cs.flatMap Utf8.encode)
      (Failure.passOn last) := .ready rfl h
  have nil : (ofTranslator t).kept = [] := rfl
  rw [nil, List.nil_append] at brings
  rw [readToEnd, collect_brings _ .probe trivial #[] #[] brings, Array.empty_append]

end ByteView
end EscapedText
