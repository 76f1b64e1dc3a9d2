import EscapedText.Command.Host
import EscapedText.Proofs.Unplaced

/-!
Copying. What a copy does to its surroundings is settled by the reads it takes, whatever these
surroundings are: events go to the log and characters are handed on, in the order of the reads. With
nowhere to hand them to, all else is done just the same. Places apart, the reads are those of a
plain translator.
-/
namespace EscapedText

open Translator (answers Yields Twin)

/-- What a copy does to its surroundings. -/
inductive Effect where
  | logged (e : Event)
  | handedOn (bytes : List UInt8)

theorem Translator.item_of_unplaced {a a' : Except Failure Item} {i : Item}
    (h : unplaced a = unplaced a') (answer : a' = .ok i) : a = .ok i := by
  rcases unplaced_cases h with ⟨j, rfl, rfl⟩ | ⟨f, f', rfl, rfl, -⟩
  · exact answer
  · contradiction

namespace Effect

def event? : Effect → Option Event
  | logged e => some e
  | handedOn _ => none

def bytes? : Effect → Option (List UInt8)
  | logged _ => none
  | handedOn bytes => some bytes

def perform {m : Type → Type} (log : Event → m Unit) (give : List UInt8 → m Unit) : Effect → m Unit
  | logged e => log e
  | handedOn bytes => give bytes

theorem events_logged (es : List Event) : (es.map logged).filterMap event? = es := by
  induction es with
  | nil => rfl
  | cons e es ih => exact congrArg (e :: ·) ih

theorem bytes_logged (es : List Event) : (es.map logged).filterMap bytes? = [] := by
  induction es with
  | nil => rfl
  | cons e es ih => exact ih

end Effect

/-- All that is handed on is taken, by `give`, or nothing is if there is nowhere to hand it to. -/
def Accepts {m : Type → Type} [Monad m] (give : List UInt8 → m Unit) :
    Option (List UInt8 → m (Except Fault Unit)) → Prop
  | none => ∀ bytes, give bytes = pure ()
  | some write => ∀ bytes, write bytes = do
      give bytes
      return .ok ()

theorem handOn_of_accepts {m : Type → Type} [Monad m] [LawfulMonad m] {give : List UInt8 → m Unit}
    {out : Option (List UInt8 → m (Except Fault Unit))} (accepts : Accepts give out) (c : Char) :
    handOn c out = do
      give (Utf8.encode c)
      return .ok () := by
  cases out with
  | none => rw [handOn, accepts, pure_bind]
  | some write => exact accepts _

namespace Session

variable {σ : Type} [Source σ] {build : Build} {mark : Bookmark}

/-- A copy of `s` takes the characters `es` and stops at the answer `a`, behind which it stands at
`u`: no character, or one that no counter can be moved past. -/
inductive Copies (build : Build) (mark : Bookmark) :
    Session σ → List Char → Except Failure Item → List Effect → Session σ → Prop where
  | stop {s : Session σ} {turn : Turn (Translator σ) (Except Failure Item)}
      (read : s.translator.next s.bookmarks = turn)
      (stays : ∀ c, turn.answer = .ok (.char c) →
        (s.bookmarks.get mark).advance? build c = none) :
      Copies build mark s [] turn.answer (turn.events.toList.map .logged) ⟨s.bookmarks, turn.state⟩
  | char {s u : Session σ} {turn : Turn (Translator σ) (Except Failure Item)} {c : Char}
      {p : Position} {es : List Char} {a : Except Failure Item} {effects : List Effect}
      (read : s.translator.next s.bookmarks = turn) (answer : turn.answer = .ok (.char c))
      (moves : (s.bookmarks.get mark).advance? build c = some p)
      (rest : Copies build mark ⟨s.bookmarks.set mark p, turn.state⟩ es a effects u) :
      Copies build mark s (c :: es) a
        (turn.events.toList.map .logged ++ .handedOn (Utf8.encode c) :: effects) u

theorem exists_copies (build : Build) (mark : Bookmark) (s : Session σ) :
    ∃ es a effects u, Copies build mark s es a effects u := by
  by_cases goesOn : ∃ c p, (s.translator.next s.bookmarks).answer = .ok (.char c) ∧
      (s.bookmarks.get mark).advance? build c = some p
  · obtain ⟨c, p, answer, moves⟩ := goesOn
    have : (s.translator.next s.bookmarks).state.size < s.translator.size :=
      Translator.size_next_lt answer
    obtain ⟨es, a, effects, u, rest⟩ := exists_copies build mark
      ⟨s.bookmarks.set mark p, (s.translator.next s.bookmarks).state⟩
    exact ⟨_, _, _, _, .char rfl answer moves rest⟩
  · refine ⟨_, _, _, _, .stop rfl ?_⟩
    intro c answer
    apply Option.eq_none_iff_forall_ne_some.mpr
    intro p moves
    exact goesOn ⟨c, p, answer, moves⟩
termination_by s.translator.size

/-- What a copy answers that has stopped at `a`, with `n` characters copied. -/
def outcome (a : Except Failure Item) (n : UInt64) : Except Halt UInt64 :=
  match a with
  | .error f => .error (.failed f)
  | .ok .ended => .ok n
  | .ok (.char _) => .error .overrun

variable {s u : Session σ} {es : List Char} {a : Except Failure Item} {effects : List Effect}

section Surroundings

variable {m : Type → Type} [Monad m] [LawfulMonad m] {log : Event → m Unit}
  {give : List UInt8 → m Unit} {out : Option (List UInt8 → m (Except Fault Unit))}
  {turn : Turn (Translator σ) (Except Failure Item)}

omit [LawfulMonad m] in
theorem copyFrom_stop (read : s.translator.next s.bookmarks = turn)
    (stays : ∀ c, turn.answer = .ok (.char c) → (s.bookmarks.get mark).advance? build c = none)
    (count : UInt64) :
    s.copyFrom build mark log out count = do
      forM turn.events.toList log
      return (outcome turn.answer count, ⟨s.bookmarks, turn.state⟩) := by
  subst read
  rw [copyFrom]
  congr 1
  funext _
  split
  · rename_i f answer
    rw [answer]
    rfl
  · rename_i answer
    rw [answer]
    rfl
  · rename_i c answer
    simp only [stays c answer, answer, outcome]

theorem copyFrom_char (accepts : Accepts give out) {c : Char} {p : Position}
    (read : s.translator.next s.bookmarks = turn) (answer : turn.answer = .ok (.char c))
    (moves : (s.bookmarks.get mark).advance? build c = some p) (count : UInt64) :
    s.copyFrom build mark log out count = (do
      forM turn.events.toList log
      give (Utf8.encode c)
      copyFrom build mark log out ⟨s.bookmarks.set mark p, turn.state⟩ (count + 1)) := by
  subst read
  rw [copyFrom]
  congr 1
  funext _
  split
  · rename_i f other
    cases answer.symm.trans other
  · rename_i other
    cases answer.symm.trans other
  · rename_i d other
    obtain rfl : c = d := Item.char.inj (Except.ok.inj (answer.symm.trans other))
    simp only [moves, handOn_of_accepts accepts, bind_assoc, pure_bind]

/-- Whatever the surroundings, a copy does what is settled by its reads, and answers accordingly. -/
theorem copyFrom_of_copies (accepts : Accepts give out)
    (copies : Copies build mark s es a effects u) (count : UInt64) :
    s.copyFrom build mark log out count = do
      forM effects (Effect.perform log give)
      return (outcome a (count + UInt64.ofNat es.length), u) := by
  have logs (events : List Event) :
      forM (events.map Effect.logged) (Effect.perform log give) = forM events log := by
    induction events with
    | nil => rfl
    | cons e events ih => simp only [List.map_cons, List.forM_cons, ih, Effect.perform]
  induction copies generalizing count with
  | stop read stays =>
    have none : count + UInt64.ofNat 0 = count := UInt64.add_zero count
    rw [copyFrom_stop read stays, logs, List.length_nil, none]
  | char read answer moves rest ih =>
    rw [copyFrom_char accepts read answer moves, ih]
    simp only [List.forM_append, List.forM_cons, logs, Effect.perform, bind_assoc, List.length_cons,
      UInt64.ofNat_add, UInt64.add_assoc, UInt64.add_comm 1]
    rfl

end Surroundings

theorem Copies.bytes (copies : Copies build mark s es a effects u) :
    effects.filterMap Effect.bytes? = es.map Utf8.encode := by
  induction copies with
  | stop read stays => exact Effect.bytes_logged _
  | char read answer moves rest ih =>
    rw [List.filterMap_append, Effect.bytes_logged, List.nil_append, List.map_cons, ← ih]
    rfl

/-- What a copy stops at is no character, but for one that a counter runs over at. -/
theorem Copies.last (copies : Copies build mark s es a effects u) {c : Char}
    (answer : a = .ok (.char c)) : (u.bookmarks.get mark).advance? build c = none := by
  induction copies with
  | stop read stays => exact stays c answer
  | char read answer moves rest ih => exact ih answer

/-- Places apart, what is copied is what a plain translator reads. -/
theorem Copies.plain (blind : Source.Blind σ) (copies : Copies build mark s es a effects u)
    {t : Translator σ} (twin : s.translator.Twin t) :
    ∃ v, Yields {} t es v ∧ unplaced a = unplaced (v.next {}).answer := by
  induction copies generalizing t with
  | stop read stays =>
    subst read
    exact ⟨t, Translator.yields_nil t, (Translator.next_aside blind _ {} twin).answer⟩
  | @char s _ _ _ _ _ _ _ read answer moves rest ih =>
    subst read
    have aside := Translator.next_aside blind s.bookmarks {} twin
    obtain ⟨v, yields, same⟩ := ih aside.state
    have first := Translator.item_of_unplaced aside.answer.symm answer
    exact ⟨v, Translator.yields_cons_iff.mpr ⟨first, yields⟩, same⟩

end Session

namespace ByteSource

theorem blind : Source.Blind ByteSource := fun _ _ _ => rfl

/-- What a plain translator reads of a device in front of the first answer that is no character. -/
structure Reads (device : List ReadStep) (cs : List Char) (last : Except Failure Item) : Prop where
  yields : ∃ u, Yields {} (Translator.ofSource (ofDevice device)) cs u ∧ (u.next {}).answer = last
  stop : ∀ c, last ≠ .ok (.char c)

variable {device : List ReadStep} {cs : List Char} {last : Except Failure Item}

theorem Reads.last_cases (h : Reads device cs last) : last = .ok .ended ∨ ∃ f, last = .error f := by
  cases last with
  | error f => exact .inr ⟨f, rfl⟩
  | ok i =>
    cases i with
    | char c => exact absurd rfl (h.stop c)
    | ended => exact .inl rfl

theorem exists_reads (device : List ReadStep) : ∃ cs last, Reads device cs last := by
  obtain ⟨cs, u, yields, stop⟩ :=
    Translator.exists_yields {} (Translator.ofSource (ofDevice device))
  exact ⟨cs, _, ⟨u, yields, rfl⟩, stop⟩

/-- The command copies just what a plain translator reads of its input, and stops alike. -/
theorem copies_of_reads (reads : Reads device cs last) {mark : Bookmark} {s : Session ByteSource}
    (begun : Session.followed device = (mark, s)) :
    ∃ a effects u, s.Copies .wrapping mark cs a effects u ∧ unplaced a = unplaced last := by
  obtain ⟨es, a, effects, u, copies⟩ := Session.exists_copies .wrapping mark s
  obtain ⟨⟨v, yields, rfl⟩, stop⟩ := reads
  have twin : s.translator.Twin (Translator.ofSource (ofDevice device)) := by
    cases begun
    exact ⟨rfl, rfl, rfl, rfl⟩
  obtain ⟨v', yields', same⟩ := copies.plain blind twin
  have stop' : ∀ c, (v'.next {}).answer ≠ .ok (.char c) := by
    intro c answer
    have last := copies.last (Translator.item_of_unplaced same answer)
    contradiction
  obtain ⟨rfl, rfl⟩ := Translator.yields_unique yields yields' stop stop'
  exact ⟨a, effects, u, copies, same⟩

end ByteSource
end EscapedText
