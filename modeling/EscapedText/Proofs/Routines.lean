import EscapedText.Proofs.Ending

/-!
A read routine by routine. The routines that read an escape are written out here as they call each
other, with a log of every item asked for and of every use of the slot for the item held back. They
come to the same turns as the scanner. The log shows that the slot is empty when it is filled, that
a read fills it at most once, and that it asks for nothing any more once it has.
-/
namespace EscapedText

/-- What a read does: it takes the held item from its slot, asks the source, or fills the slot. Each
deed comes with what was in the slot just before. -/
inductive Deed where
  | take (slot : Option Item)
  | ask (slot : Option Item)
  | hold (slot : Option Item) (i : Item)
deriving DecidableEq

/-- A translator at work, with what it has reported and done so far. -/
structure Work (σ : Type) where
  translator : Translator σ
  events : Array Event := #[]
  deeds : List Deed := []

abbrev Routine (σ α : Type) := EStateM Failure (Work σ) α

/-- A routine as it ended. -/
abbrev Worked (σ α : Type) := EStateM.Result Failure (Work σ) α

namespace Routine

variable {σ α β : Type}

def take : Routine σ (Option Item) := fun w =>
  .ok w.translator.held { w with
    translator := { w.translator with held := none }
    deeds := w.deeds ++ [.take w.translator.held] }

def hold (i : Item) : Routine σ Unit := fun w =>
  .ok () { w with
    translator := { w.translator with held := some i }
    deeds := w.deeds ++ [.hold w.translator.held i] }

def refuse (b : Bookmarks) (d : Defect) : Routine σ α := fun w =>
  let place := w.translator.cite b
  .error (.refused (.malformed place.1 d)) { w with
    translator := { w.translator with locator := place.2 }
    events := w.events.push (.malformed place.1 d) }

def report (c : Char) : Routine σ Unit := fun w =>
  .ok () { w with events := w.events.push (.decoded c w.translator.position) }

/-- The value of a digit. What is none is held back. -/
def digit (b : Bookmarks) (i : Item) : Routine σ CodeUnit :=
  match Scan.digit? i with
  | some d => pure d
  | none => do
    hold i
    refuse b (.missingDigit i)

variable [Source σ]

def ask (b : Bookmarks) : Routine σ Item := fun w =>
  let turn := Source.next b w.translator.source
  let events := w.events ++ turn.events
  let deeds := w.deeds ++ [.ask w.translator.held]
  match turn.answer with
  | .error f => .error (.source f) ⟨{ w.translator with source := turn.state }, events, deeds⟩
  | .ok i => .ok i ⟨w.translator.taking turn.state i, events, deeds⟩

theorem size_ask_lt {b : Bookmarks} {w w' : Work σ} {c : Char}
    (h : ask b w = .ok (.char c) w') :
    Source.size w'.translator.source < Source.size w.translator.source := by
  unfold ask at h
  dsimp only at h
  split at h
  · cases h
  · rename_i i answer
    cases h
    exact Source.size_next_lt b _ (by rw [answer]; trivial)

/-- The first item that is no `u`. -/
def skip (b : Bookmarks) : Routine σ Item := fun w =>
  match h : ask b w with
  | .error f w' => .error f w'
  | .ok i w' =>
    if hu : i = .char 'u' then
      have : Source.size w'.translator.source < Source.size w.translator.source :=
        size_ask_lt (hu ▸ h)
      skip b w'
    else .ok i w'
termination_by w => Source.size w.translator.source

/-- So many digits behind `unit`. -/
def digits (b : Bookmarks) : Nat → CodeUnit → Routine σ CodeUnit
  | 0, unit => pure unit
  | n + 1, unit => do
    let i ← ask b
    let d ← digit b i
    digits b n (unit.shift d)

/-- An escape behind its first `u`. -/
def body (b : Bookmarks) : Routine σ CodeUnit := do
  let i ← skip b
  let d ← digit b i
  digits b 3 d

/-- The low surrogate that must follow `high`. A complete escape of a character is held back as that
character; another high surrogate cannot be. -/
def partner (b : Bookmarks) (high : CodeUnit) : Routine σ CodeUnit := do
  let i ← ask b
  if i = .char '\\' then
    let j ← ask b
    if j = .char 'u' then
      let low ← body b
      if low.isLow then pure low
      else if low.isHigh then refuse b (.unpaired high)
      else
        hold (.char low.char)
        refuse b (.unpaired high)
    else
      hold j
      refuse b (.unpaired high)
  else
    hold i
    refuse b (.unpaired high)

def decode (b : Bookmarks) (unit : CodeUnit) : Routine σ Char :=
  if unit.isLow then refuse b (.unpaired unit)
  else if unit.isHigh then do
    let low ← partner b unit
    pure (CodeUnit.pair unit low)
  else pure unit.char

/-- A read that found the slot empty. -/
def fetch (b : Bookmarks) : Routine σ Item := do
  let i ← ask b
  if i = .char '\\' then
    let j ← ask b
    if j = .char 'u' then
      let unit ← body b
      let c ← decode b unit
      report c
      pure (.char c)
    else
      hold j
      pure (.char '\\')
  else pure i

def read (b : Bookmarks) : Routine σ Item := do
  if (← get).translator.closed then throw (.refused .closed)
  else
    match ← take with
    | some i => pure i
    | none => fetch b

end Routine

/-! The log. -/

/-- The source was asked, with nothing in the slot, and nothing else was done. -/
def Asking (ds : List Deed) : Prop := ∀ d ∈ ds, d = .ask none

/-- The source was asked, and then the slot, which was empty, was filled at most once. -/
inductive Orderly : List Deed → (held : Option Item) → Prop where
  | asked {ds : List Deed} (asking : Asking ds) : Orderly ds none
  | filled {ds : List Deed} (asking : Asking ds) (i : Item) :
    Orderly (ds ++ [.hold none i]) (some i)

theorem Orderly.behind {ds es : List Deed} {held : Option Item} (asking : Asking ds)
    (h : Orderly es held) : Orderly (ds ++ es) held := by
  cases h with
  | asked later => exact .asked (List.forall_mem_append.mpr ⟨asking, later⟩)
  | filled later i =>
    rw [← List.append_assoc]
    exact .filled (List.forall_mem_append.mpr ⟨asking, later⟩) i

namespace Work

variable {σ : Type} {w w' w'' : Work σ}

/-- From `w` to `w'` the source was asked and nothing else done. -/
structure Asks (w w' : Work σ) : Prop where
  free : w'.translator.held = none
  deeds : ∃ ds, w'.deeds = w.deeds ++ ds ∧ Asking ds

/-- From `w` to `w'` the slot was filled at most once, and at last. -/
def Ends (w w' : Work σ) : Prop :=
  ∃ ds, w'.deeds = w.deeds ++ ds ∧ Orderly ds w'.translator.held

theorem asks_refl (free : w.translator.held = none) : Asks w w :=
  ⟨free, [], (List.append_nil _).symm, by simp [Asking]⟩

theorem Asks.trans (h : Asks w w') (h' : Asks w' w'') : Asks w w'' := by
  obtain ⟨ds, done, asking⟩ := h.deeds
  obtain ⟨es, later, asking'⟩ := h'.deeds
  refine ⟨h'.free, ds ++ es, ?_, List.forall_mem_append.mpr ⟨asking, asking'⟩⟩
  rw [later, done, List.append_assoc]

theorem Asks.ends (h : Asks w w') : Ends w w' := by
  obtain ⟨ds, done, asking⟩ := h.deeds
  refine ⟨ds, done, ?_⟩
  rw [h.free]
  exact .asked asking

theorem Ends.behind (h : Asks w w') (h' : Ends w' w'') : Ends w w'' := by
  obtain ⟨ds, done, asking⟩ := h.deeds
  obtain ⟨es, later, orderly⟩ := h'
  refine ⟨ds ++ es, ?_, orderly.behind asking⟩
  rw [later, done, List.append_assoc]

theorem ends_filled (free : w.translator.held = none) (i : Item)
    (held : w'.translator.held = some i)
    (log : w'.deeds = w.deeds ++ [.hold w.translator.held i]) : Ends w w' := by
  have nothing : Asking [] := by simp [Asking]
  refine ⟨_, log, ?_⟩
  rw [free, held]
  exact .filled nothing i

end Work

namespace Routine

open Work

variable {σ α β : Type} {w : Work σ}

/-- From `w` on the source was only asked, unless the routine failed. Then the slot was filled at
most once, and at last. -/
inductive Keeps (w : Work σ) : Worked σ α → Prop where
  | ok {a : α} {w' : Work σ} (asks : w.Asks w') : Keeps w (.ok a w')
  | error {f : Failure} {w' : Work σ} (ends : w.Ends w') : Keeps w (.error f w')

theorem Keeps.behind {w' : Work σ} {r : Worked σ α} (h : w.Asks w') (h' : Keeps w' r) :
    Keeps w r := by
  cases h' with
  | ok asks => exact .ok (h.trans asks)
  | error ends => exact .error (ends.behind h)

/-- Of an empty slot it takes care. -/
def Careful (m : Routine σ α) : Prop :=
  ∀ w : Work σ, w.translator.held = none → Keeps w (m w)

theorem Careful.asks {m : Routine σ α} {w' : Work σ} {a : α} (h : Careful m)
    (free : w.translator.held = none) (turn : m w = .ok a w') : w.Asks w' := by
  have keeps := h w free
  rw [turn] at keeps
  cases keeps with
  | ok asks => exact asks

/-- How a routine leaves its work. -/
def left : Worked σ α → Work σ
  | .ok _ w => w
  | .error _ w => w

/-- A routine that may fill the slot without failing. Nothing is to come behind it. -/
def Tidy (m : Routine σ α) : Prop :=
  ∀ w : Work σ, w.translator.held = none → w.Ends (left (m w))

theorem Keeps.ends {r : Worked σ α} (h : Keeps w r) : w.Ends (left r) := by
  cases h with
  | ok asks => exact asks.ends
  | error ends => exact ends

theorem bind_apply (m : Routine σ α) (g : α → Routine σ β) (w : Work σ) :
    (m >>= g) w = match m w with
      | .ok a w' => g a w'
      | .error f w' => .error f w' := by
  change EStateM.bind m g w = _
  unfold EStateM.bind
  cases m w <;> rfl

theorem careful_pure (a : α) : Careful (pure a : Routine σ α) :=
  fun _ free => .ok (asks_refl free)

theorem careful_bind {m : Routine σ α} {g : α → Routine σ β} (hm : Careful m)
    (hg : ∀ a, Careful (g a)) : Careful (m >>= g) := by
  intro w free
  have first := hm w free
  rw [bind_apply]
  generalize m w = r at first
  cases first with
  | ok asks => exact (hg _ _ asks.free).behind asks
  | error ends => exact .error ends

theorem tidy_bind {m : Routine σ α} {g : α → Routine σ β} (hm : Careful m)
    (hg : ∀ a, Tidy (g a)) : Tidy (m >>= g) := by
  intro w free
  have first := hm w free
  rw [bind_apply]
  generalize m w = r at first
  cases first with
  | ok asks => exact (hg _ _ asks.free).behind asks
  | error ends => exact ends

theorem careful_refuse (b : Bookmarks) (d : Defect) : Careful (refuse b d : Routine σ α) := by
  intro w free
  exact .error (asks_refl (w := w) free).ends

theorem careful_hold_refuse (b : Bookmarks) (d : Defect) (i : Item) :
    Careful (hold i >>= fun _ => refuse b d : Routine σ α) :=
  fun _ free => .error (ends_filled free i rfl rfl)

theorem careful_digit (b : Bookmarks) (i : Item) : Careful (digit b i : Routine σ CodeUnit) := by
  unfold digit
  split
  · exact careful_pure _
  · exact careful_hold_refuse b _ i

/-! Going on from a routine. -/

/-- The turn that comes of a routine if its result is gone on with by `k`. -/
def goOn (k : α → Work σ → Turn (Translator σ) (Except Failure Item)) :
    Worked σ α → Turn (Translator σ) (Except Failure Item)
  | .ok a w => k a w
  | .error f w => ⟨.error f, w.translator, w.events⟩

/-- The turn that a read comes to. -/
def turn (r : Worked σ Item) : Turn (Translator σ) (Except Failure Item) :=
  goOn (fun i w => ⟨.ok i, w.translator, w.events⟩) r

variable {k k' : α → Work σ → Turn (Translator σ) (Except Failure Item)} {r : Worked σ α}

theorem goOn_bind (m : Routine σ α) (g : α → Routine σ β) (w : Work σ)
    (k : β → Work σ → Turn (Translator σ) (Except Failure Item)) :
    goOn k ((m >>= g) w) = goOn (fun a w' => goOn k (g a w')) (m w) := by
  rw [bind_apply]
  cases m w <;> rfl

theorem goOn_congr (h : ∀ a w', r = .ok a w' → k a w' = k' a w') : goOn k r = goOn k' r := by
  cases r with
  | ok a w' => exact h a w' rfl
  | error f w' => rfl

/-- Where nothing is given back the scanner empties the slot, and a routine leaves it alone. -/
theorem settle_lost (b : Bookmarks) (free : w.translator.held = none) (d : Defect) :
    Translator.settle b w.translator w.events (.broken d none) = goOn k (refuse b d w) := by
  have same : { w.translator with held := none, locator := (w.translator.cite b).2 } =
      { w.translator with locator := (w.translator.cite b).2 } := by rw [← free]
  exact congrArg (Turn.mk _ · _) same

theorem turn_state (r : Worked σ Item) : (turn r).state = (left r).translator := by
  cases r <;> rfl

variable [Source σ]

theorem careful_ask (b : Bookmarks) : Careful (ask b : Routine σ Item) := by
  intro w free
  have log : Asking [.ask w.translator.held] := by simp [Asking, free]
  unfold ask
  dsimp only
  cases (Source.next b w.translator.source).answer with
  | error f => exact .error (Asks.ends ⟨free, _, rfl, log⟩)
  | ok i => exact .ok ⟨free, _, rfl, log⟩

theorem careful_skip (b : Bookmarks) : Careful (skip b : Routine σ Item) := by
  intro w free
  have asked := careful_ask b w free
  fun_induction skip b w with
  | case1 w f w₁ first =>
    rw [first] at asked
    exact .error asked.ends
  | case2 w w₁ first smaller ih =>
    have asks := (careful_ask b).asks free first
    exact (ih asks.free (careful_ask b w₁ asks.free)).behind asks
  | case3 w i w₁ first other => exact .ok ((careful_ask b).asks free first)

theorem careful_digits (b : Bookmarks) (n : Nat) (unit : CodeUnit) :
    Careful (digits b n unit : Routine σ CodeUnit) := by
  induction n generalizing unit with
  | zero => exact careful_pure unit
  | succ n ih =>
    exact careful_bind (careful_ask b) fun i => careful_bind (careful_digit b i) fun d => ih _

theorem careful_body (b : Bookmarks) : Careful (body b : Routine σ CodeUnit) :=
  careful_bind (careful_skip b) fun i =>
    careful_bind (careful_digit b i) fun d => careful_digits b 3 d

theorem careful_partner (b : Bookmarks) (high : CodeUnit) :
    Careful (partner b high : Routine σ CodeUnit) := by
  refine careful_bind (careful_ask b) fun i => ?_
  split
  · refine careful_bind (careful_ask b) fun j => ?_
    split
    · refine careful_bind (careful_body b) fun low => ?_
      split
      · exact careful_pure low
      · split
        · exact careful_refuse b _
        · exact careful_hold_refuse b _ _
    · exact careful_hold_refuse b _ j
  · exact careful_hold_refuse b _ i

theorem careful_decode (b : Bookmarks) (unit : CodeUnit) :
    Careful (decode b unit : Routine σ Char) := by
  unfold decode
  split
  · exact careful_refuse b _
  · split
    · exact careful_bind (careful_partner b unit) fun low => careful_pure _
    · exact careful_pure _

theorem tidy_fetch (b : Bookmarks) : Tidy (fetch b : Routine σ Item) := by
  refine tidy_bind (careful_ask b) fun i => ?_
  split
  · refine tidy_bind (careful_ask b) fun j => ?_
    split
    · refine tidy_bind (careful_body b) fun unit => tidy_bind (careful_decode b unit) fun c => ?_
      intro w free
      exact (asks_refl (w := w) free).ends
    · intro w free
      exact ends_filled free j rfl rfl
  · exact fun w free => (careful_pure i w free).ends

/-! The routines and the scanner. -/

/-- What the scanner makes of a step. -/
def onward (b : Bookmarks) (w : Work σ) :
    Scan.Step → Turn (Translator σ) (Except Failure Item)
  | .more s => w.translator.scan b s w.events
  | .settled o => Translator.settle b w.translator w.events o

theorem scan_asks (b : Bookmarks) (s : Scan) (w : Work σ) :
    w.translator.scan b s w.events = goOn (fun i w' => onward b w' (s.feed i)) (ask b w) := by
  unfold ask
  dsimp only
  cases answer : (Source.next b w.translator.source).answer with
  | error f => exact Translator.scan_fault answer
  | ok i =>
    simp only [goOn]
    cases fed : s.feed i with
    | more s' => exact Translator.scan_more answer fed
    | settled o => exact Translator.scan_settled answer fed

theorem skip_ne {b : Bookmarks} {w' : Work σ} {i : Item} (h : skip b w = .ok i w') :
    i ≠ .char 'u' := by
  fun_induction skip b w with
  | case1 w f w₁ first => cases h
  | case2 w w₁ first smaller ih => exact ih h
  | case3 w j w₁ first other =>
    cases h
    exact other

theorem scan_skips (b : Bookmarks) (high : Option CodeUnit) (w : Work σ) :
    w.translator.scan b (.digits high 0 0) w.events =
      goOn (fun i w' => onward b w' ((Scan.digits high 0 0).feed i)) (skip b w) := by
  fun_induction skip b w with
  | case1 w f w₁ first =>
    rw [scan_asks, first]
  | case2 w w₁ first smaller ih =>
    rw [scan_asks, first]
    exact ih
  | case3 w i w₁ first other =>
    rw [scan_asks, first]

theorem onward_digit (b : Bookmarks) {high : Option CodeUnit} {count : Fin 4} {value : CodeUnit}
    {i : Item} (other : count = 0 → i ≠ .char 'u') (w : Work σ) :
    onward b w ((Scan.digits high count value).feed i) = goOn (fun d w' => onward b w'
      (if count = 3 then Scan.complete high (value.shift d)
        else .more (.digits high (count + 1) (value.shift d)))) (digit b i w) := by
  have hu : ¬ (count = 0 ∧ i = .char 'u') := fun h => other h.1 h.2
  unfold digit
  simp only [Scan.feed, if_neg hu]
  cases Scan.digit? i with
  | none => rfl
  | some d => rfl

theorem scan_digits (b : Bookmarks) (high : Option CodeUnit) (n : Nat) (count : Fin 4)
    (left : count.val + n = 3) (started : count ≠ 0) (value : CodeUnit) (w : Work σ) :
    w.translator.scan b (.digits high count value) w.events =
      goOn (fun unit w' => onward b w' (Scan.complete high unit))
        (digits b (n + 1) value w) := by
  induction n generalizing count value w with
  | zero =>
    obtain rfl : count = 3 := Fin.ext left
    rw [scan_asks, digits, goOn_bind]
    refine goOn_congr fun i w' _ => ?_
    rw [onward_digit b (fun h => absurd h started), goOn_bind]
    rfl
  | succ n ih =>
    have early : count ≠ 3 := by
      rintro rfl
      omega
    rw [scan_asks, digits, goOn_bind]
    refine goOn_congr fun i w' _ => ?_
    rw [onward_digit b (fun h => absurd h started), goOn_bind]
    refine goOn_congr fun d w'' _ => ?_
    rw [if_neg early]
    have next : (count + 1).val = count.val + 1 := by
      rw [Fin.val_add]
      exact Nat.mod_eq_of_lt (by change count.val + 1 < 4; omega)
    refine ih (count + 1) (by omega) ?_ _ _
    intro zero
    have := congrArg Fin.val zero
    simp [next] at this

theorem shift_zero (d : CodeUnit) : CodeUnit.shift 0 d = d := by simp [CodeUnit.shift]

theorem scan_body (b : Bookmarks) (high : Option CodeUnit) (w : Work σ) :
    w.translator.scan b (.digits high 0 0) w.events =
      goOn (fun unit w' => onward b w' (Scan.complete high unit)) (body b w) := by
  rw [scan_skips, body, goOn_bind]
  refine goOn_congr fun i w' skipped => ?_
  rw [onward_digit b (fun _ => skip_ne skipped), goOn_bind]
  refine goOn_congr fun d w'' _ => ?_
  rw [shift_zero]
  exact scan_digits b high 2 1 rfl (by decide) d w''

/-- The turn behind a decoded character. -/
def decodes (b : Bookmarks) (c : Char) (w : Work σ) :
    Turn (Translator σ) (Except Failure Item) :=
  Translator.settle b w.translator w.events (.decoded c)

theorem scan_partner (b : Bookmarks) (high : CodeUnit) (free : w.translator.held = none) :
    w.translator.scan b (.alone high) w.events =
      goOn (fun low => decodes b (CodeUnit.pair high low)) (partner b high w) := by
  rw [scan_asks, partner, goOn_bind]
  refine goOn_congr fun i w₁ first => ?_
  have free := ((careful_ask b).asks free first).free
  by_cases slash : i = .char '\\'
  · simp only [Scan.feed, if_pos slash, onward]
    rw [scan_asks, goOn_bind]
    refine goOn_congr fun j w₂ second => ?_
    have free := ((careful_ask b).asks free second).free
    by_cases hu : j = .char 'u'
    · simp only [Scan.feed, if_pos hu, onward]
      rw [scan_body, goOn_bind]
      -- The slot is still empty, which a second high surrogate relies on: it gives nothing back.
      refine goOn_congr fun low w₃ third => ?_
      have free := ((careful_body b).asks free third).free
      simp only [Scan.complete]
      split
      · rfl
      · split
        · exact settle_lost b free _
        · rfl
    · simp only [Scan.feed, if_neg hu, onward]
      rfl
  · simp only [Scan.feed, if_neg slash, onward]
    rfl

theorem onward_decode (b : Bookmarks) (unit : CodeUnit) (free : w.translator.held = none) :
    onward b w (Scan.complete none unit) = goOn (decodes b) (decode b unit w) := by
  unfold decode Scan.complete
  dsimp only
  split
  · exact settle_lost b free _
  · split
    · rw [goOn_bind]
      exact scan_partner b unit free
    · rfl

theorem scan_fetch (b : Bookmarks) (free : w.translator.held = none) :
    w.translator.scan b .fresh w.events = turn (fetch b w) := by
  rw [scan_asks, fetch, turn, goOn_bind]
  refine goOn_congr fun i w₁ first => ?_
  have free := ((careful_ask b).asks free first).free
  by_cases slash : i = .char '\\'
  · simp only [Scan.feed, if_pos slash, onward]
    rw [scan_asks, goOn_bind]
    refine goOn_congr fun j w₂ second => ?_
    have free := ((careful_ask b).asks free second).free
    by_cases hu : j = .char 'u'
    · simp only [Scan.feed, if_pos hu, onward]
      rw [scan_body, goOn_bind]
      refine goOn_congr fun unit w₃ third => ?_
      have free := ((careful_body b).asks free third).free
      rw [onward_decode b unit free, goOn_bind]
      rfl
    · simp only [Scan.feed, if_neg hu, onward]
      rfl
  · simp only [Scan.feed, if_neg slash, onward]
    have same : { w₁.translator with held := none } = w₁.translator := by rw [← free]
    exact congrArg (Turn.mk _ · _) same

/-- What a read does, from the first deed to the last. -/
def log (b : Bookmarks) (t : Translator σ) : List Deed :=
  (left (read b { translator := t })).deeds

/-- A read as its routines do it. What is in the slot is taken out first. If an item was held back,
it is the answer, and nothing else is done; if none was, one may be held back at last. -/
structure Orders (b : Bookmarks) (t : Translator σ) : Prop where
  turn : turn (read b { translator := t }) = t.next b
  shut : t.closed = true → log b t = []
  given : t.closed = false → ∀ i, t.held = some i → log b t = [.take (some i)] ∧
    (t.next b).answer = .ok i ∧ (t.next b).state.held = none
  empty : t.closed = false → t.held = none →
    ∃ ds, log b t = .take none :: ds ∧ Orderly ds (t.next b).state.held

theorem read_of_closed {t : Translator σ} (shut : t.closed = true) (b : Bookmarks) :
    read b { translator := t } = .error (.refused .closed) { translator := t } := by
  have got (w : Work σ) : (get : Routine σ (Work σ)) w = .ok w w := rfl
  rw [read, bind_apply, got]
  dsimp only
  rw [if_pos shut]
  rfl

theorem read_of_open {t : Translator σ} (opened : t.closed = false) (b : Bookmarks) :
    read b { translator := t } =
      match t.held with
      | some i => .ok i ⟨{ t with held := none }, #[], [.take t.held]⟩
      | none => fetch b ⟨{ t with held := none }, #[], [.take t.held]⟩ := by
  have got (w : Work σ) : (get : Routine σ (Work σ)) w = .ok w w := rfl
  have ajar : ¬ t.closed = true := by simp [opened]
  rw [read, bind_apply, got]
  dsimp only
  rw [if_neg ajar, bind_apply]
  dsimp only [take]
  cases t.held <;> rfl

theorem orders_of_closed {t : Translator σ} (shut : t.closed = true) (b : Bookmarks) :
    Orders b t := by
  have worked := read_of_closed shut b
  refine ⟨?_, ?_, ?_, ?_⟩
  · rw [worked, Translator.next_of_closed shut]
    rfl
  · intro _
    rw [log, worked]
    rfl
  · exact fun opened => absurd shut (by simp [opened])
  · exact fun opened => absurd shut (by simp [opened])

theorem orders_of_held {t : Translator σ} {i : Item} (opened : t.closed = false)
    (held : t.held = some i) (b : Bookmarks) : Orders b t := by
  have worked := read_of_open opened b
  rw [held] at worked
  have turned := Translator.next_of_held b opened held
  refine ⟨?_, ?_, ?_, ?_⟩
  · rw [worked, turned]
    rfl
  · exact fun shut => absurd shut (by simp [opened])
  · intro _ j same
    cases held.symm.trans same
    rw [log, worked, turned]
    exact ⟨rfl, rfl, rfl⟩
  · exact fun _ none => absurd held (by simp [none])

theorem orders_of_free {t : Translator σ} (opened : t.closed = false) (free : t.held = none)
    (b : Bookmarks) : Orders b t := by
  let w : Work σ := ⟨{ t with held := none }, #[], [.take none]⟩
  have worked : read b { translator := t } = fetch b w := by
    rw [read_of_open opened b, free]
  have same : { t with held := none } = t := by rw [← free]
  have turned : turn (fetch b w) = t.next b := by
    rw [← scan_fetch b rfl, Translator.next_of_free b opened free]
    exact congrArg (Translator.scan b · .fresh #[]) same
  refine ⟨?_, ?_, ?_, ?_⟩
  · rw [worked]
    exact turned
  · exact fun shut => absurd shut (by simp [opened])
  · exact fun _ i held => absurd held (by simp [free])
  · intro _ _
    obtain ⟨ds, done, orderly⟩ := tidy_fetch b w rfl
    refine ⟨ds, ?_, ?_⟩
    · rw [log, worked]
      exact done
    · rw [← turned, turn_state]
      exact orderly

theorem read_orders (b : Bookmarks) (t : Translator σ) : Orders b t := by
  cases closed : t.closed with
  | true => exact orders_of_closed closed b
  | false =>
    cases held : t.held with
    | some i => exact orders_of_held closed held b
    | none => exact orders_of_free closed held b

end Routine

namespace Session

variable {σ : Type} [Source σ]

theorem enact_holds {u : Session σ} {g : List Act}
    (apart : ∀ x ∈ g, x ≠ .close ∧ ∀ a, x ≠ .read a) :
    (u.enact g).translator.held = u.translator.held ∧
      (u.enact g).translator.closed = u.translator.closed := by
  induction g generalizing u with
  | nil => exact ⟨rfl, rfl⟩
  | cons x g ih =>
    obtain ⟨first, later⟩ := List.forall_mem_cons.mp apart
    obtain ⟨held, closed⟩ := ih (u := u.act x) later
    cases x with
    | read a => exact absurd rfl (first.2 a)
    | close => exact absurd rfl first.1
    | locate l => exact ⟨held, closed⟩
    | move m step => exact ⟨held, closed⟩

/-- A read fills the slot at most once, when it is empty, and asks for nothing behind that. What is
held back at any point of a session is the next answer, unless the translator is closed first. -/
theorem held_is_next (s : σ) (b : Bookmarks) (qs : List Request) :
    (∀ (b : Bookmarks) (t : Translator σ), Routine.Orders b t) ∧
    ∀ g₁ g₂ g₃ i a, history ⟨b, .ofSource s⟩ qs = g₁ ++ g₂ ++ .read a :: g₃ →
      (enact ⟨b, .ofSource s⟩ g₁).translator.held = some i →
      (∀ x ∈ g₂, x ≠ .close ∧ ∀ a, x ≠ .read a) → a = .ok i := by
  refine ⟨Routine.read_orders, ?_⟩
  intro g₁ g₂ g₃ i a split held apart
  have upright : Upright s (enact ⟨b, .ofSource s⟩ g₁).translator :=
    enact_upright (upright_ofSource s) g₁
  have opened : (enact ⟨b, .ofSource s⟩ g₁).translator.closed = false := by
    cases closed : (enact ⟨b, .ofSource s⟩ g₁).translator.closed with
    | true =>
      rw [upright.shut closed] at held
      cases held
    | false => rfl
  obtain ⟨still, unclosed⟩ := enact_holds (u := enact ⟨b, .ofSource s⟩ g₁) apart
  obtain ⟨-, tells⟩ := history_told ⟨b, .ofSource s⟩ qs
  rw [split, tells_append, enact_append] at tells
  obtain ⟨-, answer, -⟩ := tells
  have given := Translator.next_of_held (enact ⟨b, .ofSource s⟩ g₁ |>.enact g₂).bookmarks
    (unclosed.trans opened) (still.trans held)
  exact answer.symm.trans (congrArg Turn.answer given)

/-- A backslash that opens no escape. -/
def newline : Script := { entries := [.ok (.char '\\'), .ok (.char 'n')] }

theorem newline_held_is_next :
    let start : Session Script := ⟨{}, .ofSource newline⟩
    let first := start.enact [.read (.ok (.char '\\'))]
    first.translator.held = some (.char 'n') ∧
    ∃ a, start.history [.read none, .read none] = [.read (.ok (.char '\\')), .read a] ∧
      a = .ok (.char 'n') := by
  intro start first
  obtain ⟨-, next⟩ := held_is_next newline {} [.read none, .read none]
  let t : Translator Script :=
    { source := { entries := [] }, held := some (.char 'n'), position := ⟨1, 3, 2⟩ }
  have turn : start.translator.next start.bookmarks = ⟨.ok (.char '\\'), t, #[]⟩ := by
    have fed : Scan.feed .fresh (.char '\\') = .more (.slash none) := rfl
    refine (Translator.next_of_free {} rfl rfl).trans ((Translator.scan_more rfl fed).trans ?_)
    exact Translator.scan_settled (i := .char 'n')
      (o := .plain (.char '\\') (some (.char 'n'))) rfl rfl
  have held : first.translator.held = some (.char 'n') := congrArg (·.state.held) turn
  have told : start.history [.read none, .read none] =
      [.read (.ok (.char '\\')), .read (t.next start.bookmarks).answer] := by
    simp only [history, acts, perform, Act.behind, Run.track_none, turn]
    rfl
  refine ⟨held, _, told, ?_⟩
  exact next [.read (.ok (.char '\\'))] [] [] _ _ told held (by simp)

end Session
end EscapedText
