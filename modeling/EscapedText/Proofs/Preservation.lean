import EscapedText.Session

/-!
What requests keep. A request other than closing reads so many times, or attaches a locator, or
moves a bookmark. So what every read of a translator keeps, and a new locator too, is kept by all of
them; and what every answer of the source keeps of it is kept by every read.
-/
namespace EscapedText

theorem Run.extend_keeps {σ ε : Type} {next : Bookmarks → σ → Turn σ (Except ε Item)}
    {past : ε → Bool} {follow : Option Bookmark} {P : σ → Prop}
    (keeps : ∀ b s, P s → P (next b s).state) (n : Nat) {r : Run σ ε} (h : P r.state) :
    P (extend next past follow n r).state := by
  induction n generalizing r with
  | zero => exact h
  | succ n ih =>
    have pushed : P (r.push follow (next r.bookmarks r.state)).state := keeps _ _ h
    simp only [extend]
    split
    · exact ih pushed
    · exact pushed

namespace Translator

variable {σ : Type} {t : Translator σ} {b : Bookmarks}

theorem settle_state (events : Array Event) (o : Outcome) :
    (settle b t events o).state.source = t.source ∧
      (settle b t events o).state.closed = t.closed := by
  cases o <;> exact ⟨rfl, rfl⟩

variable [Source σ]

theorem scan_keeps {P : σ → Prop} (keeps : ∀ b s, P s → P (Source.next b s).state) (s : Scan)
    (events : Array Event) (h : P t.source) :
    P (t.scan b s events).state.source ∧ (t.scan b s events).state.closed = t.closed := by
  fun_induction scan b t s events with
  | case1 t s events turn all f hf => exact ⟨keeps b t.source h, rfl⟩
  | case2 t s events turn all i hi t' s' hs hlt ih => exact ih (keeps b t.source h)
  | case3 t s events turn all i hi t' o hs =>
    obtain ⟨source, closed⟩ := settle_state (b := b) (t := t') all o
    rw [source, closed]
    exact ⟨keeps b t.source h, rfl⟩

theorem next_keeps {P : σ → Prop} (keeps : ∀ b s, P s → P (Source.next b s).state)
    (b : Bookmarks) (h : P t.source) :
    P (t.next b).state.source ∧ (t.next b).state.closed = t.closed := by
  unfold next
  split
  · exact ⟨h, rfl⟩
  · split
    · exact ⟨h, rfl⟩
    · exact scan_keeps keeps .fresh #[] h

end Translator

def Request.closes : Request → Bool
  | .close => true
  | _ => false

namespace Session

variable {σ : Type} [Source σ]

theorem perform_keeps {P : Translator σ → Prop} (reads : ∀ b t, P t → P (t.next b).state)
    (locates : ∀ l t, P t → P (t.locatedBy l)) {s : Session σ} {q : Request}
    (hq : q.closes = false) (h : P s.translator) : P (s.perform q).state.translator := by
  cases q with
  | read follow => exact reads _ _ h
  | drain limit follow => exact Run.extend_keeps reads limit h
  | readItem => exact reads _ _ h
  | readInto buffer => exact Run.extend_keeps reads buffer.length h
  | readAll out => exact Run.extend_keeps reads (s.translator.size + 1) h
  | iterate n => exact Run.extend_keeps reads n h
  | close => contradiction
  | locate l => exact locates l _ h
  | move m move => exact h

/-- The replies to requests in order, and the session behind them. -/
def performs (s : Session σ) : List Request → List Reply × Session σ
  | [] => ([], s)
  | q :: qs =>
    let turn := s.perform q
    let later := turn.state.performs qs
    (turn.answer :: later.1, later.2)

theorem performs_keeps {P : Translator σ → Prop} (reads : ∀ b t, P t → P (t.next b).state)
    (locates : ∀ l t, P t → P (t.locatedBy l)) {s : Session σ} {qs : List Request}
    (hqs : ∀ q ∈ qs, q.closes = false) (h : P s.translator) : P (s.performs qs).2.translator := by
  induction qs generalizing s with
  | nil => exact h
  | cons q qs ih =>
    obtain ⟨first, later⟩ := List.forall_mem_cons.mp hqs
    exact ih later (perform_keeps reads locates first h)

end Session
end EscapedText
