import EscapedText.Proofs.Places
import EscapedText.Source.Script
import Mathlib.Logic.Basic

/-!
Answers apart from their places. Locators and bookmarks decide what a refusal cites and nothing
else: two sessions over the same source that differ in the locators attached and in the moves of
bookmarks, wherever these stand between their requests, differ in the places of refusals and of the
events that report them, and in nothing else that is seen.
-/
namespace EscapedText

/-- No answer depends on the bookmarks. -/
def Source.Blind (σ : Type) [Source σ] : Prop :=
  ∀ (b b' : Bookmarks) (s : σ), next b s = next b' s

theorem Script.blind : Source.Blind Script := fun _ _ _ => rfl

/-! The same, with every refusal at the start. -/

def Refusal.unplaced : Refusal → Refusal
  | .malformed _ d => .malformed .start d
  | .closed => .closed

def Failure.unplaced : Failure → Failure
  | .refused r => .refused r.unplaced
  | .source f => .source f

def Fault.unplaced : Fault → Fault
  | .refused r => .refused r.unplaced
  | f => f

def Event.unplaced : Event → Event
  | .malformed _ d => .malformed .start d
  | e => e

abbrev unplaced {α : Type} (a : Except Failure α) : Except Failure α :=
  a.mapError Failure.unplaced

def Reply.unplaced : Reply → Reply
  | .read a => .read (EscapedText.unplaced a)
  | .drained as => .drained (as.map EscapedText.unplaced)
  | .readItem a => .readItem (a.mapError Fault.unplaced)
  | .readInto a buffer => .readInto (EscapedText.unplaced a) buffer
  | .readAll a out => .readAll (EscapedText.unplaced a) out
  | .iterated steps => .iterated (steps.map (Option.map EscapedText.unplaced))
  | .closed a => .closed a
  | .done => .done

theorem unplaced_cases {α : Type} {a a' : Except Failure α} (h : unplaced a = unplaced a') :
    (∃ i, a = .ok i ∧ a' = .ok i) ∨
      ∃ f f', a = .error f ∧ a' = .error f' ∧ f.unplaced = f'.unplaced := by
  cases a with
  | ok i =>
    cases a' with
    | ok i' => exact .inl ⟨i, rfl, congrArg Except.ok (Except.ok.inj h).symm⟩
    | error f' => contradiction
  | error f =>
    cases a' with
    | ok i' => contradiction
    | error f' => exact .inr ⟨f, f', rfl, rfl, Except.error.inj h⟩

theorem isMalformed_unplaced (f : Failure) : f.unplaced.isMalformed = f.isMalformed := by
  cases f with
  | refused r => cases r <;> rfl
  | source f => rfl

namespace Run

theorem char?_unplaced (a : Except Failure Item) : char? (unplaced a) = char? a := by
  cases a <;> rfl

theorem readsOn_unplaced {past : Failure → Bool} (blind : ∀ f, past f.unplaced = past f)
    (a : Except Failure Item) : readsOn past (unplaced a) = readsOn past a := by
  cases a with
  | ok i => rfl
  | error f => exact blind f

end Run

namespace Translator

variable {σ : Type} {t u : Translator σ} {b b' : Bookmarks}

/-- The same but for locators. -/
structure Twin (t u : Translator σ) : Prop where
  source : t.source = u.source
  held : t.held = u.held
  position : t.position = u.position
  closed : t.closed = u.closed

theorem Twin.refl (t : Translator σ) : Twin t t := ⟨rfl, rfl, rfl, rfl⟩

theorem Twin.trans {v : Translator σ} (h : Twin t u) (h' : Twin u v) : Twin t v :=
  ⟨h.source.trans h'.source, h.held.trans h'.held, h.position.trans h'.position,
    h.closed.trans h'.closed⟩

/-- The same but for places, and for the locators that give them. -/
structure Aside (turn turn' : Turn (Translator σ) (Except Failure Item)) : Prop where
  answer : unplaced turn.answer = unplaced turn'.answer
  state : Twin turn.state turn'.state
  events : turn.events.map Event.unplaced = turn'.events.map Event.unplaced

theorem settle_aside (h : Twin t u) {events events' : Array Event}
    (same : events.map Event.unplaced = events'.map Event.unplaced) (o : Outcome) :
    Aside (settle b t events o) (settle b' u events' o) := by
  cases o with
  | plain i held => exact ⟨rfl, ⟨h.source, rfl, h.position, h.closed⟩, same⟩
  | decoded c =>
    refine ⟨rfl, h, ?_⟩
    simp only [settle, Array.map_push, same, h.position]
  | broken d held =>
    refine ⟨rfl, ⟨h.source, rfl, h.position, h.closed⟩, ?_⟩
    simp only [settle, Array.map_push, same, Event.unplaced]

theorem taking_twin (h : Twin t u) (source : σ) (i : Item) :
    Twin (t.taking source i) (u.taking source i) :=
  ⟨rfl, h.held, congrArg (advance · i) h.position, h.closed⟩

variable [Source σ]

theorem scan_aside (blind : Source.Blind σ) (s : Scan) (events : Array Event) :
    ∀ (u : Translator σ) (events' : Array Event), Twin t u →
      events.map Event.unplaced = events'.map Event.unplaced →
      Aside (t.scan b s events) (u.scan b' s events') := by
  fun_induction scan b t s events with
  | case1 t s events turn all f hf =>
    intro u events' h same
    -- Both sources take the same turn, whatever the bookmarks read.
    have turns : turn = Source.next b' u.source := h.source ▸ blind b b' t.source
    rw [scan_fault (turns ▸ hf), ← turns]
    refine ⟨rfl, ⟨rfl, h.held, h.position, h.closed⟩, ?_⟩
    simp only [all, Array.map_append, same]
  | case2 t s events turn all i hi t' s' hs hlt ih =>
    intro u events' h same
    have turns : turn = Source.next b' u.source := h.source ▸ blind b b' t.source
    rw [scan_more (turns ▸ hi) hs, ← turns]
    apply ih _ _ (taking_twin h turn.state i)
    simp only [all, Array.map_append, same]
  | case3 t s events turn all i hi t' o hs =>
    intro u events' h same
    have turns : turn = Source.next b' u.source := h.source ▸ blind b b' t.source
    rw [scan_settled (turns ▸ hi) hs, ← turns]
    apply settle_aside (taking_twin h turn.state i)
    simp only [all, Array.map_append, same]

theorem next_aside (blind : Source.Blind σ) (b b' : Bookmarks) (h : Twin t u) :
    Aside (t.next b) (u.next b') := by
  unfold next
  rw [← h.closed, ← h.held]
  split
  · exact ⟨rfl, h, rfl⟩
  · cases t.held with
    | some i => exact ⟨rfl, ⟨h.source, rfl, h.position, rfl⟩, rfl⟩
    | none => exact scan_aside blind .fresh #[] u #[] h rfl

theorem close_twin (h : Twin t u) :
    t.close.answer = u.close.answer ∧ Twin t.close.state u.close.state ∧
      t.close.events = u.close.events := by
  unfold close
  rw [← h.closed, ← h.source]
  split
  · exact ⟨rfl, h, rfl⟩
  · refine ⟨rfl, ⟨rfl, rfl, h.position, rfl⟩, ?_⟩
    rw [← h.position]

theorem size_twin (h : Twin t u) : t.size = u.size := by
  rw [size, size, h.source, h.held]

end Translator

/-! Runs and requests. -/

namespace Run

variable {σ : Type}

/-- What two runs have collected and where they stand is the same but for places. -/
structure Aside (r r' : Run (Translator σ) Failure) : Prop where
  answers : r.answers.map unplaced = r'.answers.map unplaced
  state : r.state.Twin r'.state
  events : r.events.map Event.unplaced = r'.events.map Event.unplaced

variable {r r' : Run (Translator σ) Failure}

theorem push_aside (h : Aside r r') {turn turn' : Turn (Translator σ) (Except Failure Item)}
    (same : Translator.Aside turn turn') (follow follow' : Option Bookmark) :
    Aside (r.push follow turn) (r'.push follow' turn') := by
  refine ⟨?_, same.state, ?_⟩
  · simp only [push, Array.map_push, h.answers, same.answer]
  · simp only [push, Array.map_append, h.events, same.events]

theorem extend_aside [Source σ] (blind : Source.Blind σ) {past : Failure → Bool}
    (placeless : ∀ f, past f.unplaced = past f) (follow follow' : Option Bookmark) (n : Nat)
    (h : Aside r r') :
    Aside (extend Translator.next past follow n r) (extend Translator.next past follow' n r') := by
  induction n generalizing r r' with
  | zero => exact h
  | succ n ih =>
    have same := Translator.next_aside blind r.bookmarks r'.bookmarks h.state
    have pushed := push_aside h same follow follow'
    have on : readsOn past (r.state.next r.bookmarks).answer =
        readsOn past (r'.state.next r'.bookmarks).answer := by
      rw [← readsOn_unplaced placeless, same.answer, readsOn_unplaced placeless]
    simp only [extend, on]
    split
    · exact ih pushed
    · exact pushed

theorem run_aside [Source σ] (blind : Source.Blind σ) {past : Failure → Bool}
    (placeless : ∀ f, past f.unplaced = past f) (follow follow' : Option Bookmark) (n : Nat)
    {t u : Translator σ} (h : t.Twin u) (b b' : Bookmarks) :
    Aside (t.run b past follow n) (u.run b' past follow' n) :=
  extend_aside blind placeless follow follow' n ⟨rfl, h, rfl⟩

theorem runAll_aside [Source σ] (blind : Source.Blind σ) {t u : Translator σ} (h : t.Twin u)
    (b b' : Bookmarks) (follow follow' : Option Bookmark) :
    Aside (t.runAll b follow) (u.runAll b' follow') := by
  rw [Translator.runAll, Translator.runAll, ← Translator.size_twin h]
  exact run_aside blind (fun _ => rfl) follow follow' _ h b b'

theorem toList_aside (h : Aside r r') :
    r.answers.toList.map unplaced = r'.answers.toList.map unplaced := by
  rw [← Array.toList_map, h.answers, Array.toList_map]

/-- What is computed of answers without a look at places. -/
theorem eq_of_aside {α : Type} {f : List (Except Failure Item) → α}
    (placeless : ∀ as, f (as.map unplaced) = f as) (h : Aside r r') :
    f r.answers.toList = f r'.answers.toList := by
  rw [← placeless, toList_aside h, placeless]

theorem chars_aside (h : Aside r r') : r.chars = r'.chars := by
  have chars (r : Run (Translator σ) Failure) :
      r.chars = (r.answers.toList.filterMap char?).toArray := by
    obtain ⟨b, state, ⟨as⟩, events⟩ := r
    simp [Run.chars]
  rw [chars, chars]
  apply congrArg List.toArray
  apply eq_of_aside (f := List.filterMap char?) _ h
  intro as
  rw [List.filterMap_map]
  exact congrArg (List.filterMap · as) (funext char?_unplaced)

theorem appendTo_aside (h : Aside r r') (out : String) : r.appendTo out = r'.appendTo out := by
  rw [appendTo, appendTo, ← Array.foldl_toList, ← Array.foldl_toList]
  apply eq_of_aside (f := List.foldl _ out) _ h
  intro as
  simp only [List.foldl_map, char?_unplaced]

/-- Runs stop alike, or both at failures that differ in their places. -/
theorem stop?_aside (h : Aside r r') : r.stop? = r'.stop? ∨ ∃ f f', r.stop? = some (.error f) ∧
    r'.stop? = some (.error f') ∧ f.unplaced = f'.unplaced := by
  have last : r.answers.back?.map unplaced = r'.answers.back?.map unplaced := by
    rw [← Array.back?_map, ← Array.back?_map, h.answers]
  unfold stop?
  cases back : r.answers.back? with
  | none =>
    rw [back] at last
    rw [Option.map_eq_none_iff.mp last.symm]
    exact .inl rfl
  | some a =>
    rw [back] at last
    obtain ⟨a', back', same⟩ := Option.map_eq_some_iff.mp last.symm
    rw [back']
    rcases unplaced_cases same with ⟨i, rfl, rfl⟩ | ⟨f', f, rfl, rfl, places⟩
    · exact .inl rfl
    · exact .inr ⟨f, f', rfl, rfl, places.symm⟩

end Run

namespace Translator

variable {σ : Type} [Source σ] {t u : Translator σ} {b b' : Bookmarks}

theorem passOn_unplaced (a : Except Failure Item) :
    (Failure.passOn (unplaced a)).mapError Fault.unplaced =
      (Failure.passOn a).mapError Fault.unplaced := by
  cases a with
  | ok i => rfl
  | error f =>
    cases f with
    | refused r => cases r <;> rfl
    | source f => rfl

theorem nextItem_aside (blind : Source.Blind σ) (h : Twin t u) :
    (t.nextItem b).answer.mapError Fault.unplaced =
      (u.nextItem b').answer.mapError Fault.unplaced := by
  have one := next_aside blind b b' h
  simp only [nextItem]
  rw [← passOn_unplaced, one.answer, passOn_unplaced]

theorem readInto_aside {buffer : List Char}
    (h : (t.run b never none buffer.length).Aside (u.run b' never none buffer.length)) :
    unplaced (t.readInto b buffer).answer.1 = unplaced (u.readInto b' buffer).answer.1 ∧
      (t.readInto b buffer).answer.2 = (u.readInto b' buffer).answer.2 := by
  rcases Run.stop?_aside h with same | ⟨f, f', stop, stop', places⟩
  · simp only [readInto, Run.chars_aside h, same, and_self]
  · simp only [readInto, Run.chars_aside h, stop, stop', and_true]
    exact congrArg Except.error places

theorem readAll_aside (h : (t.runAll b none).Aside (u.runAll b' none)) (out : String) :
    unplaced (t.readAll b out).answer.1 = unplaced (u.readAll b' out).answer.1 ∧
      (t.readAll b out).answer.2 = (u.readAll b' out).answer.2 := by
  rcases Run.stop?_aside h with same | ⟨f, f', stop, stop', places⟩
  · simp only [readAll, Run.chars_aside h, Run.appendTo_aside h, same, and_self]
  · simp only [readAll, Run.appendTo_aside h, stop, stop', and_true]
    exact congrArg Except.error places

theorem step?_unplaced (a : Except Failure Item) :
    (step? a).map unplaced = step? (unplaced a) := by
  cases a with
  | error f => rfl
  | ok i => cases i <;> rfl

theorem iterate_aside {n : Nat} (h : (t.run b Failure.isMalformed none n).Aside
    (u.run b' Failure.isMalformed none n)) :
    (t.iterate b n).answer.map (Option.map unplaced) =
      (u.iterate b' n).answer.map (Option.map unplaced) := by
  have steps (as : List (Except Failure Item)) :
      (as.map step?).map (Option.map unplaced) = (as.map unplaced).map step? := by
    simp [step?_unplaced]
  have size := congrArg Array.size h.answers
  rw [Array.size_map, Array.size_map] at size
  simp only [iterate, List.map_append, steps, size, Run.toList_aside h]

end Translator

/-- The request without a follower, if it is one that the translator takes part in. -/
def Request.core : Request → Option Request
  | .read _ => some (.read none)
  | .drain limit _ => some (.drain limit none)
  | .locate _ | .move _ _ => none
  | q => some q

namespace Session

variable {σ : Type} [Source σ]

/-- What is seen of a request but for places: the reply, the answers of the reads it comes to and
the events, and where it leaves the translator. -/
structure View (σ : Type) where
  reply : Reply
  reads : List (Except Failure Item)
  events : Array Event
  position : Position
  closed : Bool
  source : σ

def view (s : Session σ) (q : Request) : View σ where
  reply := (s.perform q).answer.unplaced
  reads := ((s.acts q).filterMap Act.answer?).map unplaced
  events := (s.perform q).events.map Event.unplaced
  position := (s.perform q).state.translator.position
  closed := (s.perform q).state.translator.closed
  source := (s.perform q).state.translator.source

/-- What is seen of requests in order, without those that attach locators or move bookmarks. -/
def views (s : Session σ) : List Request → List (View σ)
  | [] => []
  | q :: qs =>
    match q.core with
    | some _ => s.view q :: (s.perform q).state.views qs
    | none => (s.perform q).state.views qs

structure Alike (turn turn' : Turn (Session σ) Reply) : Prop where
  reply : turn.answer.unplaced = turn'.answer.unplaced
  events : turn.events.map Event.unplaced = turn'.events.map Event.unplaced
  state : turn.state.translator.Twin turn'.state.translator

variable {s u : Session σ}

theorem view_eq {q q' : Request} (alike : Alike (s.perform q) (u.perform q'))
    (reads : ((s.acts q).filterMap Act.answer?).map unplaced =
      ((u.acts q').filterMap Act.answer?).map unplaced) : s.view q = u.view q' := by
  simp only [view, alike.reply, reads, alike.events, alike.state.position, alike.state.closed,
    alike.state.source]

theorem perform_core (blind : Source.Blind σ) (h : s.translator.Twin u.translator)
    {q c : Request} (core : q.core = some c) :
    Alike (s.perform q) (u.perform c) ∧ ((s.acts q).filterMap Act.answer?).map unplaced =
      ((u.acts c).filterMap Act.answer?).map unplaced := by
  -- Each request is one read or a run of reads, and its reply is made of their answers.
  have one := Translator.next_aside blind s.bookmarks u.bookmarks h
  have same (past : Failure → Bool) (placeless : ∀ f, past f.unplaced = past f)
      (follow : Option Bookmark) (n : Nat) :=
    Run.run_aside blind placeless follow none n h s.bookmarks u.bookmarks
  have reads {r r' : Run (Translator σ) Failure} (h : r.Aside r') (follow : Option Bookmark) :
      ((Act.reads follow r.answers.toList).filterMap Act.answer?).map unplaced =
        ((Act.reads none r'.answers.toList).filterMap Act.answer?).map unplaced := by
    rw [Act.answers_reads, Act.answers_reads, Run.toList_aside h]
  cases q with
  | read follow =>
    cases core
    refine ⟨⟨congrArg Reply.read one.answer, one.events, one.state⟩, ?_⟩
    simp only [acts, Act.answers_behind, List.map_singleton, one.answer]
  | drain limit follow =>
    cases core
    have run := same Failure.isMalformed isMalformed_unplaced follow limit
    refine ⟨⟨?_, run.events, run.state⟩, reads run follow⟩
    exact congrArg Reply.drained (Run.toList_aside run)
  | readItem =>
    cases core
    refine ⟨⟨?_, one.events, one.state⟩, ?_⟩
    · exact congrArg Reply.readItem (Translator.nextItem_aside blind h)
    · exact congrArg (fun a => [a]) one.answer
  | readInto buffer =>
    cases core
    have run := same Translator.never (fun _ => rfl) none buffer.length
    refine ⟨⟨?_, run.events, run.state⟩, reads run none⟩
    obtain ⟨answer, buffer⟩ := Translator.readInto_aside run
    exact congrArg₂ Reply.readInto answer buffer
  | readAll out =>
    cases core
    have run := Run.runAll_aside blind h s.bookmarks u.bookmarks none none
    refine ⟨⟨?_, run.events, run.state⟩, reads run none⟩
    obtain ⟨answer, text⟩ := Translator.readAll_aside run out
    exact congrArg₂ Reply.readAll answer text
  | iterate n =>
    cases core
    have run := same Failure.isMalformed isMalformed_unplaced none n
    refine ⟨⟨?_, run.events, run.state⟩, reads run none⟩
    exact congrArg Reply.iterated (Translator.iterate_aside run)
  | close =>
    cases core
    obtain ⟨answer, state, events⟩ := Translator.close_twin h
    exact ⟨⟨congrArg Reply.closed answer, congrArg _ events, state⟩, rfl⟩
  | locate l | move m step => contradiction

theorem core_of_core {q c : Request} (core : q.core = some c) : c.core = some c := by
  cases q <;> cases core <;> rfl

/-- What stands between the requests of the translator leaves it as it is but for its locator. -/
theorem perform_between {q : Request} (between : q.core = none) :
    (s.perform q).state.translator.Twin s.translator := by
  cases q with
  | locate l | move m step => exact ⟨rfl, rfl, rfl, rfl⟩
  | _ => contradiction

theorem views_core (blind : Source.Blind σ) (h : s.translator.Twin u.translator)
    (qs : List Request) : s.views qs = u.views (qs.filterMap Request.core) := by
  induction qs generalizing s u with
  | nil => rfl
  | cons q qs ih =>
    rw [views]
    cases core : q.core with
    | none =>
      have twin := (perform_between (s := s) core).trans h
      rw [List.filterMap_cons_none core]
      exact ih twin
    | some c =>
      obtain ⟨alike, reads⟩ := perform_core blind h core
      rw [List.filterMap_cons_some core, views, core_of_core core]
      exact congrArg₂ List.cons (view_eq alike reads) (ih alike.state)

/-- Sessions over the same source that are put the same requests, but for the locators attached and
the moves of bookmarks on the way, are seen alike request by request. Every act that the requests of
a session come to is placed by the locator attached and by the bookmarks. -/
theorem views_apart_from_places (blind : Source.Blind σ) (h : s.translator.Twin u.translator)
    {qs ps : List Request} (same : qs.filterMap Request.core = ps.filterMap Request.core) :
    s.views qs = u.views ps ∧
    ∀ (w : Session σ) (rs : List Request), w.enact (w.history rs) = (w.performs rs).2 ∧
      ∀ g a after, w.history rs = g ++ a :: after → w.Placed g a := by
  constructor
  · rw [views_core blind h, same]
    exact (views_core blind (.refl u.translator) ps).symm
  · intro w rs
    exact ⟨(history_told w rs).1, fun g a after split => history_placed split⟩

end Session

/-- An escape that breaks off. -/
def Script.stub : Script := { entries := ['\\', 'u', 'x'].map fun c => .ok (.char c) }

theorem Translator.next_stub (b : Bookmarks) {t : Translator Script} {l : Locator}
    (opened : t.closed = false) (free : t.held = none) (source : t.source = .stub)
    (located : t.locator = some l) : (t.next b).answer =
      .error (.refused (.malformed (l.answer b l.asked) (.missingDigit (.char 'x')))) := by
  have slash : Scan.fresh.feed (.char '\\') = .more (.slash none) := rfl
  have letter : (Scan.slash none).feed (.char 'u') = .more (.digits none 0 0) := rfl
  have broken : (Scan.digits none 0 0).feed (.char 'x') =
      .settled (.broken (.missingDigit (.char 'x')) (some (.char 'x'))) := rfl
  cases t
  cases source
  cases located
  rw [Translator.next_of_free b opened free, Translator.scan_more rfl slash,
    Translator.scan_more rfl letter, Translator.scan_settled rfl broken]
  rfl

theorem Session.stub_apart_from_places :
    let s : Session Script := ⟨⟨[.start]⟩, .ofSource .stub⟩
    let u : Session Script := ⟨{}, (Translator.ofSource .stub).locatedBy (.fixed ⟨7, 7, 7⟩)⟩
    let qs : List Request := [.locate (.bookmark ⟨0⟩), .move ⟨0⟩ (.advance '\n'), .read none]
    s.translator.Twin u.translator ∧
      qs.filterMap Request.core = [Request.read none].filterMap Request.core ∧
      s.views qs = u.views [.read none] ∧
      (s.performs qs).1 = [.done, .done,
        .read (.error (.refused (.malformed ⟨2, 1, 1⟩ (.missingDigit (.char 'x')))))] ∧
      (u.performs [.read none]).1 =
        [.read (.error (.refused (.malformed ⟨7, 7, 7⟩ (.missingDigit (.char 'x')))))] := by
  intro s u qs
  have twin : s.translator.Twin u.translator := ⟨rfl, rfl, rfl, rfl⟩
  have same : qs.filterMap Request.core = [Request.read none].filterMap Request.core := rfl
  obtain ⟨alike, -⟩ := Session.views_apart_from_places Script.blind twin same
  refine ⟨twin, same, alike, ?_, ?_⟩
  · have refused := Translator.next_stub (t := s.translator.locatedBy (.bookmark ⟨0⟩))
      ⟨[⟨2, 1, 1⟩]⟩ rfl rfl rfl rfl
    exact congrArg (fun a => [Reply.done, .done, .read a]) refused
  · have refused := Translator.next_stub (t := u.translator) {} rfl rfl rfl rfl
    exact congrArg (fun a => [Reply.read a]) refused

end EscapedText
