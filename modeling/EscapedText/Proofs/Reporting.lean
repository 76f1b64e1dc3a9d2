import EscapedText.Proofs.ByteDelivery
import EscapedText.Proofs.Closing
import EscapedText.Proofs.History
import EscapedText.Proofs.Undecided
import EscapedText.Source.Origin
import Mathlib

/-!
What is reported. Over a source that reports nothing itself a read reports what it comes to: a
refused escape with the place and the defect of the refusal, a decoded one with its character and
the place behind it, and nothing else. The first closing reports where it finds the translator. So a
request reports what its acts do, in their order, and so does a read of bytes; a failure that is put
off has been reported by then.
-/
namespace EscapedText

namespace Source

/-- The source reports nothing. -/
structure Silent (σ : Type) [Source σ] : Prop where
  next : ∀ (b : Bookmarks) (s : σ), (Source.next b s).events = #[]
  close : ∀ s : σ, (Source.close s).events = #[]

theorem silent_text : Silent TextSource := by
  constructor
  · intro b s
    change s.next.events = #[]
    unfold TextSource.next
    split <;> rfl
  · intro s
    rfl

theorem silent_bytes : Silent ByteSource := ⟨fun _ _ => rfl, fun _ => rfl⟩

theorem silent_script : Silent Script := by
  constructor
  · intro b s
    change s.next.events = #[]
    unfold Script.next
    split <;> rfl
  · intro s
    rfl

theorem silent_origin : Silent Origin := by
  constructor
  · intro b s
    cases s with
    | text s => exact silent_text.next b s
    | bytes s => exact silent_bytes.next b s
    | script s => exact silent_script.next b s
  · intro s
    cases s with
    | text s => exact silent_text.close s
    | bytes s => exact silent_bytes.close s
    | script s => exact silent_script.close s

variable {σ : Type} [Source σ] {b : Bookmarks}

theorem leads_append {P : σ → Prop} {v w : List Char} {s : σ} :
    Leads b P (v ++ w) s ↔ Leads b (Leads b P w) v s := by
  induction v generalizing s with
  | nil => rfl
  | cons c v ih => exact and_congr_right fun _ => ih

theorem Leads.imp {P Q : σ → Prop} {v : List Char} {s : σ} (h : Leads b P v s)
    (imp : ∀ x, P x → Q x) : Leads b Q v s := by
  induction v generalizing s with
  | nil => exact imp s h
  | cons c v ih => exact ⟨h.1, ih h.2⟩

theorem Leads.exists {P : σ → Prop} {v : List Char} {s : σ} (h : Leads b P v s) :
    ∃ x, P x ∧ Leads b (· = x) v s := by
  induction v generalizing s with
  | nil => exact ⟨s, h, rfl⟩
  | cons c v ih =>
    obtain ⟨x, holds, leads⟩ := ih h.2
    exact ⟨x, holds, h.1, leads⟩

/-- A source gives some characters that leave a scan open, and what it gives then does not. -/
theorem exists_opens (b : Bookmarks) (s : Scan) (x : σ) :
    ∃ v s' y, s.reach? v = some s' ∧ Leads b (· = y) v x ∧
      ∀ i, (Source.next b y).answer = .ok i → ∃ o, s'.feed i = .settled o := by
  cases answer : (Source.next b x).answer with
  | error f =>
    refine ⟨[], s, x, rfl, rfl, ?_⟩
    simp [answer]
  | ok i =>
    cases fed : s.feed i with
    | settled o =>
      refine ⟨[], s, x, rfl, rfl, ?_⟩
      intro j same
      obtain rfl : i = j := by simpa [answer] using same
      exact ⟨o, fed⟩
    | more s' =>
      obtain ⟨c, rfl⟩ := Scan.char_of_feed fed
      have smaller : Source.size (Source.next b x).state < Source.size x :=
        Source.size_next_lt b x (by simp [answer, Advances])
      obtain ⟨v, t, y, reach, leads, settles⟩ := exists_opens b s' (Source.next b x).state
      exact ⟨c :: v, t, y, (Scan.reach?_more fed).trans reach, ⟨answer, leads⟩, settles⟩
termination_by Source.size x

end Source

open Source (Leads Silent)

namespace Scan

variable {s t : Scan} {v w : List Char} {o : Outcome}

theorem through_reached (reach : s.reach? v = some t) (w : List Char) :
    s.through (v ++ w) = t.through w := by
  induction v generalizing s with
  | nil =>
    cases reach
    rfl
  | cons c v ih =>
    cases fed : s.feed (.char c) with
    | more u =>
      have later : u.reach? v = some t := by simpa [reach?_more fed] using reach
      simp only [List.cons_append, through_cons, fed, Step.through, ih later]
    | settled o => simp [reach?_settled fed] at reach

theorem Settles.through (h : Settles s w o) : s.through w = (o, []) := by
  cases h with
  | last v c reach fed => exact (through_reached reach [c]).trans (through_of_settled fed)

/-- What decodes a character is an escape or a surrogate pair, and no less of it. -/
theorem settles_decoded_iff {c : Char} :
    Settles fresh w (.decoded c) ↔ ∃ p : Piece, p.text = w ∧ p.outcome = .decoded c := by
  constructor
  · intro settles
    have through := settles.through
    rcases begins w with rfl | rfl | ⟨p, rest, rfl⟩ | ⟨d, held, rest, broken⟩
    · cases through
    · cases through
    · simp only [through_piece, Prod.mk.injEq] at through
      obtain ⟨outcome, rfl⟩ := through
      exact ⟨p, (List.append_nil _).symm, outcome⟩
    · simp [through_broken broken] at through
  · rintro ⟨p, rfl, outcome⟩
    have through := through_piece p []
    rw [List.append_nil, outcome] at through
    rcases reach_or_settles fresh p.text with ⟨t, reach⟩ | ⟨w, rest, o, parts, settles, same⟩
    · have final := congrArg Prod.fst (through.symm.trans (through_of_reach reach))
      cases t with
      | slash high => cases high <;> contradiction
      | fresh | digits high count value | alone high => contradiction
    · obtain ⟨rfl, rfl⟩ := Prod.mk.inj (through.symm.trans same)
      rw [List.append_nil] at parts
      exact parts ▸ settles

end Scan

namespace Translator

variable {σ : Type} [Source σ] {b : Bookmarks} {t : Translator σ}

theorem scan_reached (silent : Silent σ) {s s' : Scan} {v : List Char} {P : σ → Prop}
    (reach : s.reach? v = some s') (leads : Leads b P v t.source) (events : Array Event) :
    ∃ source, P source ∧ t.scan b s events =
      scan b { t with source, position := t.position.past v } s' events := by
  induction v generalizing s t with
  | nil =>
    cases reach
    exact ⟨t.source, leads, rfl⟩
  | cons c v ih =>
    obtain ⟨first, later⟩ := leads
    cases fed : s.feed (.char c) with
    | more u =>
      have reach : u.reach? v = some s' := by simpa [Scan.reach?_more fed] using reach
      obtain ⟨source, holds, scan⟩ :=
        ih (t := t.taking (Source.next b t.source).state (.char c)) reach later
      refine ⟨source, holds, ?_⟩
      simp only [scan_more first fed, silent.next, Array.append_empty]
      exact scan
    | settled o => simp [Scan.reach?_settled fed] at reach

theorem scan_settles (silent : Silent σ) {s : Scan} {w : List Char} {o : Outcome}
    {P : σ → Prop} (settles : s.Settles w o) (leads : Leads b P w t.source)
    (events : Array Event) : ∃ source, P source ∧ t.scan b s events =
      settle b { t with source, position := t.position.past w } events o := by
  cases settles with
  | last v c reach fed =>
    obtain ⟨x, ⟨first, holds⟩, scan⟩ :=
      scan_reached silent reach (Source.leads_append.mp leads) events
    refine ⟨_, holds, scan.trans ?_⟩
    rw [scan_settled first fed]
    simp only [silent.next, Array.append_empty, Position.past_append]
    rfl

/-- A scan meets a fault, or the end of the input, or a character that settles it. -/
theorem scan_cases (silent : Silent σ) (b : Bookmarks) (s : Scan) (t : Translator σ)
    (events : Array Event) :
    (∃ f source position, t.scan b s events =
      ⟨.error (.source f), { t with source, position }, events⟩) ∨
    ∃ source position o, t.scan b s events = settle b { t with source, position } events o ∧
      ((∃ s' : Scan, o = s'.final) ∨ ∃ w, s.Settles w o ∧ Leads b (· = source) w t.source) := by
  obtain ⟨v, s', y, reach, leads, settles⟩ := Source.exists_opens b s t.source
  obtain ⟨source, same, scan⟩ := scan_reached silent reach leads events
  subst same
  cases answer : (Source.next b source).answer with
  | error f =>
    have fault := scan.trans (scan_fault answer)
    simp only [silent.next, Array.append_empty] at fault
    exact .inl ⟨f, _, _, fault⟩
  | ok i =>
    obtain ⟨o, fed⟩ := settles i answer
    have settled := scan.trans (scan_settled answer fed)
    simp only [silent.next, Array.append_empty] at settled
    refine .inr ⟨_, _, o, settled, ?_⟩
    cases i with
    | ended =>
      have final := fed.symm.trans s'.feed_ended_eq_final
      exact .inl ⟨s', Scan.Step.settled.inj final⟩
    | char c =>
      refine .inr ⟨v ++ [c], .last v c reach fed, Source.leads_append.mpr ?_⟩
      apply leads.imp
      rintro x rfl
      exact ⟨answer, rfl⟩

/-- The escape or surrogate pair `p`, which stands for `c`, is what `t` reads next. -/
structure Decodes (b : Bookmarks) (t : Translator σ) (p : Piece) (c : Char) : Prop where
  opened : t.closed = false
  free : t.held = none
  escape : p.outcome = .decoded c
  ahead : Leads b (fun _ => True) p.text t.source

/-- A read reports a refused escape as it is refused, and a decoded one with the place behind it.
Whatever else it answers, it reports nothing. -/
structure Mirrored (b : Bookmarks) (t : Translator σ) : Prop where
  refused : ∀ p d, (t.next b).answer = .error (.refused (.malformed p d)) →
    (t.next b).events = #[.malformed p d]
  decoded : ∀ p c, Decodes b t p c → (t.next b).answer = .ok (.char c) ∧
    Leads b (· = (t.next b).state.source) p.text t.source ∧
    (t.next b).state.position = t.position.past p.text ∧
    (t.next b).events = #[.decoded c (t.next b).state.position]
  quiet : (∀ p d, (t.next b).answer ≠ .error (.refused (.malformed p d))) →
    (∀ p c, ¬ Decodes b t p c) → (t.next b).events = #[]

theorem mirrored_scan (silent : Silent σ) (b : Bookmarks) (opened : t.closed = false)
    (free : t.held = none) : Mirrored b t := by
  have scanned : t.next b = t.scan b .fresh #[] := next_of_free b opened free
  have cases := scan_cases silent b .fresh t #[]
  rw [← scanned] at cases
  constructor
  · intro p d refused
    rcases cases with ⟨f, x, place, fault⟩ | ⟨x, place, o, settled, -⟩
    · simp [fault] at refused
    · cases o with
      | broken d' held =>
        simp only [settled, settle, Except.error.injEq, Failure.refused.injEq,
          Refusal.malformed.injEq] at refused
        simp [settled, settle, refused]
      | plain i held | decoded c => simp [settled, settle] at refused
  · intro p c decodes
    have settles := Scan.settles_decoded_iff.mpr ⟨p, rfl, decodes.escape⟩
    obtain ⟨x, -, leads⟩ := decodes.ahead.exists
    obtain ⟨y, rfl, scan⟩ := scan_settles silent settles leads #[]
    have turn := scanned.trans scan
    simp [turn, settle, leads]
  · intro unrefused undecoded
    rcases cases with ⟨f, x, place, fault⟩ | ⟨x, place, o, settled, ends⟩
    · simp [fault]
    · cases o with
      | plain i held => simp [settled, settle]
      | broken d held => exact absurd (congrArg Turn.answer settled) (unrefused _ d)
      | decoded c =>
        rcases ends with ⟨s, final⟩ | ⟨w, settles, leads⟩
        · cases s with
          | slash high => cases high <;> contradiction
          | fresh | digits high count value | alone high => contradiction
        · obtain ⟨p, rfl, escape⟩ := Scan.settles_decoded_iff.mp settles
          exact absurd ⟨opened, free, escape, leads.imp fun _ _ => trivial⟩ (undecoded p c)

theorem next_mirrored (silent : Silent σ) (b : Bookmarks) (t : Translator σ) : Mirrored b t := by
  cases opened : t.closed with
  | true =>
    have turn := next_of_closed opened b
    constructor
    · simp [turn]
    · intro p c decodes
      simp [decodes.opened] at opened
    · simp [turn]
  | false =>
    cases held : t.held with
    | none => exact mirrored_scan silent b opened held
    | some i =>
      have turn := next_of_held b opened held
      constructor
      · simp [turn]
      · intro p c decodes
        simp [decodes.free] at held
      · simp [turn]

end Translator

namespace Session

variable {σ : Type} [Source σ] {s : Session σ} {g h : List Act}

/-- What an act reports. -/
def told (s : Session σ) : Act → Array Event
  | .read _ => (s.translator.next s.bookmarks).events
  | .close => s.translator.close.events
  | .locate _ => #[]
  | .move _ _ => #[]

def report (s : Session σ) : List Act → Array Event
  | [] => #[]
  | a :: h => s.told a ++ (s.act a).report h

theorem report_append (s : Session σ) (g h : List Act) :
    s.report (g ++ h) = s.report g ++ (s.enact g).report h := by
  induction g generalizing s with
  | nil => simp [report, enact]
  | cons a g ih => simp [report, enact, ih]

theorem report_behind (s : Session σ) (follow : Option Bookmark) (a : Except Failure Item) :
    s.report (Act.behind follow a) = (s.translator.next s.bookmarks).events := by
  unfold Act.behind
  split <;> simp [report, told]

theorem extend_reports (past : Failure → Bool) (follow : Option Bookmark) (n : Nat)
    (r : Run (Translator σ) Failure) {as : List (Except Failure Item)}
    (took : (Run.extend Translator.next past follow n r).answers.toList =
      r.answers.toList ++ as) :
    (Run.extend Translator.next past follow n r).events =
      r.events ++ r.session.report (Act.reads follow as) := by
  induction n generalizing r as with
  | zero =>
    obtain rfl : as = [] := by simpa [Run.extend] using took
    simp [Run.extend, Act.reads, report]
  | succ n ih =>
    let turn := r.state.next r.bookmarks
    have first : r.session.report (Act.behind follow turn.answer) = turn.events :=
      report_behind r.session follow turn.answer
    have pushed : r.session.enact (Act.behind follow turn.answer) = (r.push follow turn).session :=
      (behind_told r.session follow).1
    simp only [Run.extend] at took ⊢
    split at took
    · rename_i on
      obtain ⟨later, answers, -⟩ := extend_told past follow n (r.push follow turn)
      have same : r.answers.toList ++ turn.answer :: later = r.answers.toList ++ as := by
        rw [← took, answers]
        simp [Run.push]
      obtain rfl := List.append_cancel_left same
      rw [if_pos on, ih _ answers]
      simp only [Act.reads, List.flatMap_cons, report_append, pushed, first, Run.push,
        Array.append_assoc]
    · rename_i off
      obtain rfl : [turn.answer] = as := by simpa [Run.push, turn] using took
      rw [if_neg off]
      simp only [Act.reads, List.flatMap_singleton, first]
      rfl

theorem run_reports (past : Failure → Bool) (follow : Option Bookmark) (n : Nat)
    (s : Session σ) : (s.translator.run s.bookmarks past follow n).events =
      s.report (Act.reads follow (s.translator.run s.bookmarks past follow n).answers.toList) := by
  have whole := extend_reports past follow n (.start s.bookmarks s.translator)
    (List.nil_append _).symm
  exact whole.trans Array.empty_append

theorem perform_reports (s : Session σ) (q : Request) :
    (s.perform q).events = s.report (s.acts q) := by
  cases q with
  | read follow => exact (report_behind s follow _).symm
  | drain limit follow => exact run_reports Failure.isMalformed follow limit s
  | readItem => simp [perform, after, Translator.nextItem, acts, report, told]
  | readInto buffer => exact run_reports Translator.never none buffer.length s
  | readAll out => exact run_reports Translator.never none (s.translator.size + 1) s
  | iterate n => exact run_reports Failure.isMalformed none n s
  | close => simp [perform, after, acts, report, told]
  | locate l | move m move => simp [perform, acts, report, told]

/-- So many single reads as acts. -/
theorem reads_told (s : Session σ) (n : Nat) :
    let both := s.translator.reads (List.replicate n s.bookmarks)
    s.enact (Act.reads none both.1) = ⟨s.bookmarks, both.2⟩ ∧
      s.Tells (Act.reads none both.1) ∧
      s.report (Act.reads none both.1) = s.translator.reports (List.replicate n s.bookmarks) := by
  induction n generalizing s with
  | zero => exact ⟨rfl, trivial, rfl⟩
  | succ n ih =>
    let turn := s.translator.next s.bookmarks
    obtain ⟨leads, tells, reports⟩ := ih ⟨s.bookmarks, turn.state⟩
    exact ⟨leads, ⟨rfl, tells⟩, congrArg (turn.events ++ ·) reports⟩

/-- What the act `a` behind `g` reports in a fresh session. -/
inductive Reported (s : Session σ) (g : List Act) : Act → Prop where
  | read (a : Except Failure Item) (mirrored : s.translator.Mirrored s.bookmarks) :
    Reported s g (.read a)
  | first (notYet : .close ∉ g) (told : s.told .close = #[.closing s.translator.position]) :
    Reported s g .close
  | again (already : .close ∈ g) (told : s.told .close = #[]) : Reported s g .close
  | locate (l : Locator) (told : s.told (.locate l) = #[]) : Reported s g (.locate l)
  | move (m : Bookmark) (step : Bookmarks.Move) (told : s.told (.move m step) = #[]) :
    Reported s g (.move m step)

theorem closed_iff (tells : s.Tells h) (fresh : s.translator.closed = false) :
    (s.enact h).translator.closed = true ↔ .close ∈ h := by
  refine enact_keeps (P := fun u g => u.translator.closed = true ↔ .close ∈ g) (g := [])
    ?_ (by simp [fresh]) tells
  intro u g a same _
  cases a with
  | read a =>
    obtain ⟨-, kept⟩ := Translator.next_keeps (t := u.translator) (P := fun _ => True)
      (fun _ _ _ => trivial) u.bookmarks trivial
    simp [act, kept, same]
  | close =>
    have closed : u.translator.close.state.closed = true := by
      unfold Translator.close
      split <;> simp_all
    simp [act, closed]
  | locate l | move m step => simpa [act, Translator.locatedBy] using same

theorem act_reported (silent : Silent σ) (tells : s.Tells g) (fresh : s.translator.closed = false)
    (a : Act) : Reported (s.enact g) g a := by
  have closed := closed_iff tells fresh
  cases a with
  | read a => exact .read a (Translator.next_mirrored silent _ _)
  | close =>
    by_cases already : .close ∈ g
    · have shut := Translator.close_of_closed (closed.mpr already)
      exact .again already (congrArg Turn.events shut)
    · have opened := Translator.close_of_open (Bool.eq_false_iff.mpr (mt closed.mp already))
      refine .first already ((congrArg Turn.events opened).trans ?_)
      simp [silent.close]
  | locate l => exact .locate l rfl
  | move m step => exact .move m step rfl

end Session

/-- A translator with the view of its bytes, read through either. -/
structure Desk (σ : Type) where
  bookmarks : Bookmarks
  view : ByteView σ

/-- A request of the translator, a read of so many bytes, or a new view in place of the old. -/
inductive Dealing where
  | ask (q : Request)
  | bytes (room : Nat)
  | renew

inductive Dealt where
  | reply (r : Reply)
  | bytes (answer : Except Fault (Array UInt8))
  | renewed

namespace Desk

variable {σ : Type}

def fresh (b : Bookmarks) (source : σ) : Desk σ := ⟨b, .ofTranslator (.ofSource source)⟩

def session (d : Desk σ) : Session σ := ⟨d.bookmarks, d.view.translator⟩

variable [Source σ]

def deal (d : Desk σ) : Dealing → Turn (Desk σ) Dealt
  | .ask q =>
    let turn := d.session.perform q
    ⟨.reply turn.answer,
      ⟨turn.state.bookmarks, { d.view with translator := turn.state.translator }⟩, turn.events⟩
  | .bytes room =>
    let turn := d.view.read d.bookmarks room
    ⟨.bytes turn.answer, ⟨d.bookmarks, turn.state⟩, turn.events⟩
  | .renew => ⟨.renewed, ⟨d.bookmarks, .ofTranslator d.view.translator⟩, #[]⟩

/-- The acts that a dealing comes to. A failure is met by the read that puts it off, and handing it
on comes to no act. -/
inductive Meets (d : Desk σ) : Dealing → List Act → Prop where
  | ask (q : Request) : Meets d (.ask q) (d.session.acts q)
  | late {room : Nat} {f : Failure} (put : d.view.deferred = some f)
    (answer : (d.deal (.bytes room)).answer = .bytes (.error f.toFault)) :
    Meets d (.bytes room) []
  | bytes {room : Nat} {as : List (Except Failure Item)} (ready : d.view.deferred = none)
    (filled : ByteView.Filled d.view.kept room (d.view.read d.bookmarks room).state as
      (d.view.read d.bookmarks room).answer) :
    Meets d (.bytes room) (Act.reads none as)
  | renew : Meets d .renew []

/-- A dealing comes to the acts `h`, leads where they lead, and reports what they report. -/
structure Reports (d : Desk σ) (x : Dealing) (h : List Act) : Prop where
  meets : d.Meets x h
  tells : d.session.Tells h
  leads : d.session.enact h = (d.deal x).state.session
  events : (d.deal x).events = d.session.report h

inductive AllReport : Desk σ → List Dealing → List (List Act) → Prop where
  | nil (d : Desk σ) : AllReport d [] []
  | cons {d : Desk σ} {x : Dealing} {h : List Act} {xs : List Dealing} {hs : List (List Act)}
    (first : d.Reports x h) (later : AllReport (d.deal x).state xs hs) :
    AllReport d (x :: xs) (h :: hs)

theorem bytes_reports (d : Desk σ) (room : Nat) : ∃ h, d.Reports (.bytes room) h := by
  cases put : d.view.deferred with
  | some f =>
    have turn : d.view.read d.bookmarks room =
        ⟨.error f.toFault, { d.view with deferred := none }, #[]⟩ := by
      simp [ByteView.read, put]
    refine ⟨[], .late put ?_, trivial, ?_, ?_⟩
    · simp [deal, turn]
    · simp [deal, turn, session, Session.enact]
    · simp [deal, turn, Session.report]
  | none =>
    have turn : d.view.read d.bookmarks room = d.view.fill d.bookmarks room #[] #[] := by
      simp [ByteView.read, put]
    obtain ⟨n, state, filled, events⟩ :=
      ByteView.fill_filled (b := d.bookmarks) room #[] #[] put
    rw [← turn] at state filled events
    obtain ⟨leads, tells, reports⟩ := d.session.reads_told n
    have filled : ByteView.Filled d.view.kept room (d.view.read d.bookmarks room).state
        (d.view.translator.reads (List.replicate n d.bookmarks)).1
        (d.view.read d.bookmarks room).answer := by simpa using filled
    refine ⟨_, .bytes put filled, tells, ?_, ?_⟩
    · exact leads.trans (congrArg (Session.mk d.bookmarks) state.symm)
    · exact (events.trans (Array.empty_append)).trans reports.symm

theorem exists_reports (d : Desk σ) (x : Dealing) : ∃ h, d.Reports x h := by
  cases x with
  | ask q =>
    obtain ⟨leads, tells⟩ := d.session.acts_told q
    exact ⟨_, .ask q, tells, leads, d.session.perform_reports q⟩
  | bytes room => exact d.bytes_reports room
  | renew => exact ⟨[], .renew, trivial, rfl, rfl⟩

theorem exists_allReport (d : Desk σ) (xs : List Dealing) : ∃ hs, d.AllReport xs hs := by
  induction xs generalizing d with
  | nil => exact ⟨[], .nil d⟩
  | cons x xs ih =>
    obtain ⟨h, first⟩ := d.exists_reports x
    obtain ⟨hs, later⟩ := ih (d.deal x).state
    exact ⟨h :: hs, .cons first later⟩

theorem AllReport.tells {d : Desk σ} {xs : List Dealing} {hs : List (List Act)}
    (h : d.AllReport xs hs) : d.session.Tells hs.flatten := by
  induction h with
  | nil d => trivial
  | cons first later ih =>
    rw [List.flatten_cons, Session.tells_append, first.leads]
    exact ⟨first.tells, ih⟩

/-- Whatever is done with a fresh translator, by requests or by reads of bytes, each dealing reports
what the acts report that it comes to, and each act reports what it answers and nothing else. -/
theorem reports_mirror_answers (silent : Silent σ) (b : Bookmarks) (source : σ)
    (xs : List Dealing) :
    ∃ hs, (fresh b source).AllReport xs hs ∧ ∀ g a after, hs.flatten = g ++ a :: after →
      Session.Reported ((fresh b source).session.enact g) g a := by
  obtain ⟨hs, all⟩ := (fresh b source).exists_allReport xs
  refine ⟨hs, all, ?_⟩
  intro g a after split
  have tells := all.tells
  rw [split, Session.tells_append] at tells
  exact Session.act_reported silent tells.1 rfl a

/-- A character in front of an escape without a digit. -/
def brokenOff : Script := { entries := ['a', '\\', 'u', '?'].map fun c => .ok (.char c) }

/-- The read that meets the refusal behind its first byte reports it, and the next one, which hands
it on, does not. -/
theorem brokenOff_reports_mirror :
    let d := fresh {} brokenOff
    let behind := (d.deal (.bytes 4)).state
    Silent Script ∧
    (∃ hs, d.AllReport [.bytes 4, .bytes 4, .ask .close, .ask .close] hs ∧
      ∀ g a after, hs.flatten = g ++ a :: after → Session.Reported (d.session.enact g) g a) ∧
    (d.deal (.bytes 4)).events = #[.malformed ⟨1, 5, 4⟩ (.missingDigit (.char '?'))] ∧
    behind.view.deferred = some (.refused (.malformed ⟨1, 5, 4⟩ (.missingDigit (.char '?')))) ∧
    (behind.deal (.bytes 4)).events = #[] := by
  intro d behind
  refine ⟨Source.silent_script, ?_, ?_, ?_, ?_⟩
  · exact reports_mirror_answers Source.silent_script {} brokenOff _
  · cbv
  · cbv
  · cbv

end Desk
end EscapedText
