import EscapedText.Escape.Scan
import EscapedText.Locator
import EscapedText.Source

/-!
The translator: a source of characters whose escapes are replaced by what they stand for. It
holds at most one item back, the one that settled the last token, and answers it before it asks
its source again; a held item is never scanned. A malformed escape is refused at the place the
locator gives, or at the raw position without a locator.
-/
namespace EscapedText

structure Translator (σ : Type) where
  source : σ
  held : Option Item := none
  locator : Option Locator := none
  position : Position := .start
  closed : Bool := false

namespace Translator

variable {σ : Type}

def ofSource (source : σ) : Translator σ := { source }

def locatedBy (t : Translator σ) (l : Locator) : Translator σ := { t with locator := some l }

/-- The raw position past an item of the source. -/
def advance (p : Position) : Item → Position
  | .char c => p.advance c
  | .ended => p

/-- The place to cite now, and the locator after the question. -/
def cite (t : Translator σ) (b : Bookmarks) : Position × Option Locator :=
  match t.locator with
  | none => (t.position, none)
  | some l => ((l.consult b).1, some (l.consult b).2)

/-- Answers what a scan has settled, after the events so far. -/
def settle (b : Bookmarks) (t : Translator σ) (events : Array Event) :
    Outcome → Turn (Translator σ) (Except Failure Item)
  | .plain i held => ⟨.ok i, { t with held }, events⟩
  | .decoded c => ⟨.ok (.char c), t, events.push (.decoded c t.position)⟩
  | .broken d held =>
    ⟨.error (.refused (.malformed (t.cite b).1 d)), { t with held, locator := (t.cite b).2 },
      events.push (.malformed (t.cite b).1 d)⟩

/-- `t` with the item `i` taken from its source, which is `source` now. -/
def taking (t : Translator σ) (source : σ) (i : Item) : Translator σ :=
  { t with source, position := advance t.position i }

variable [Source σ]

theorem size_next_of_feed {b : Bookmarks} {source : σ} {s s' : Scan} {i : Item}
    (h : (Source.next b source).answer = .ok i) (hs : s.feed i = .more s') :
    Source.size (Source.next b source).state < Source.size source := by
  obtain ⟨c, rfl⟩ := Scan.char_of_feed hs
  exact Source.size_next_lt b source (by rw [h]; trivial)

/-- Reads raw items into `s` until it is settled. A fault drops what was scanned. -/
def scan (b : Bookmarks) (t : Translator σ) (s : Scan) (events : Array Event) :
    Turn (Translator σ) (Except Failure Item) :=
  let turn := Source.next b t.source
  let events := events ++ turn.events
  match h : turn.answer with
  | .error f => ⟨.error (.source f), { t with source := turn.state }, events⟩
  | .ok i =>
    let t' := t.taking turn.state i
    match hs : s.feed i with
    | .more s' =>
      have : Source.size turn.state < Source.size t.source := size_next_of_feed h hs
      scan b t' s' events
    | .settled o => settle b t' events o
termination_by Source.size t.source

theorem scan_fault {b : Bookmarks} {t : Translator σ} {s : Scan} {events : Array Event} {f : Fault}
    (h : (Source.next b t.source).answer = .error f) :
    t.scan b s events = ⟨.error (.source f), { t with source := (Source.next b t.source).state },
      events ++ (Source.next b t.source).events⟩ := by
  unfold scan
  dsimp only
  split <;> simp_all

theorem scan_more {b : Bookmarks} {t : Translator σ} {s s' : Scan} {events : Array Event}
    {i : Item} (h : (Source.next b t.source).answer = .ok i) (hs : s.feed i = .more s') :
    t.scan b s events = (t.taking (Source.next b t.source).state i).scan b s'
      (events ++ (Source.next b t.source).events) := by
  rw [scan]
  dsimp only
  split
  · simp_all
  · split <;> simp_all [taking]

theorem scan_settled {b : Bookmarks} {t : Translator σ} {s : Scan} {events : Array Event}
    {i : Item} {o : Outcome} (h : (Source.next b t.source).answer = .ok i)
    (hs : s.feed i = .settled o) :
    t.scan b s events = settle b (t.taking (Source.next b t.source).state i)
      (events ++ (Source.next b t.source).events) o := by
  rw [scan]
  dsimp only
  split
  · simp_all
  · split <;> simp_all [taking]

/-- One translated item. -/
def next (b : Bookmarks) (t : Translator σ) : Turn (Translator σ) (Except Failure Item) :=
  if t.closed then ⟨.error (.refused .closed), t, #[]⟩
  else
    match t.held with
    | some i => ⟨.ok i, { t with held := none }, #[]⟩
    | none => t.scan b .fresh #[]

/-- Closes the source; a second close does nothing. -/
def close (t : Translator σ) : Turn (Translator σ) (Except Failure Unit) :=
  if t.closed then ⟨.ok (), t, #[]⟩
  else
    let turn := Source.close t.source
    ⟨Failure.ofSource turn.answer, { t with source := turn.state, held := none, closed := true },
      #[.closing t.position] ++ turn.events⟩

/-- The translator as a source: failures are passed on as faults. -/
def nextItem (b : Bookmarks) (t : Translator σ) : Turn (Translator σ) (Except Fault Item) :=
  let turn := t.next b
  ⟨Failure.passOn turn.answer, turn.state, turn.events⟩

def closeItem (t : Translator σ) : Turn (Translator σ) (Except Fault Unit) :=
  let turn := t.close
  ⟨Failure.passOn turn.answer, turn.state, turn.events⟩

end Translator
end EscapedText
