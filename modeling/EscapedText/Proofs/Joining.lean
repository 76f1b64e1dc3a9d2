import EscapedText.Proofs.Budget
import EscapedText.Proofs.Displacing
import EscapedText.Proofs.Ledger
import EscapedText.Proofs.Reporting

/-!
Texts one behind the other. Let a translator come to the last character of a text without a look
behind it, and hold nothing back there. Then nothing of that text is left that could change what
comes behind it, whatever that begins with: the results of both together are those of the first and
then those of the second, read from the place where the first one ends.
-/
namespace EscapedText

/-- Settled tokens one behind the other, with no open start at the end. -/
inductive Tiled : List Char → Prop where
  | nil : Tiled []
  | token {w v : List Char} {o : Outcome} (settles : Scan.Settles .fresh w o) (later : Tiled v) :
    Tiled (w ++ v)

theorem Scan.Settles.through_append {s : Scan} {w : List Char} {o : Outcome} (h : s.Settles w o)
    (v : List Char) : s.through (w ++ v) = (o, v) := by
  cases h with
  | last x c reach fed =>
    rw [List.append_assoc]
    exact (through_reached reach (c :: v)).trans (through_of_settled (v := c :: v) fed)

theorem Piece.settles_text (p : Piece) : Scan.Settles .fresh p.text p.outcome := by
  have through := Scan.through_piece p []
  rw [List.append_nil] at through
  rcases Scan.reach_or_settles .fresh p.text with ⟨s, reach⟩ | ⟨w, rest, o, parts, settles, same⟩
  · -- The end of the input settles no scan in the way that a piece does.
    have final := congrArg Prod.fst (through.symm.trans (Scan.through_of_reach reach))
    have final : p.outcome = s.final := final
    have held := s.held_final
    rw [← final] at held
    cases p <;> simp [Piece.outcome, Outcome.held] at held
  · obtain ⟨rfl, rfl⟩ := Prod.mk.inj (through.symm.trans same)
    rw [List.append_nil] at parts
    exact parts ▸ settles

theorem tiled_pieces (ps : List Piece) : Tiled (ps.flatMap Piece.text) := by
  induction ps with
  | nil => exact .nil
  | cons p ps ih => exact .token p.settles_text ih

/-- The lone backslash at its end is all that can leave a spelling open. -/
theorem Spelling.tiled {s : Spelling} (whole : s.trailing = false) : Tiled s.text := by
  have text : s.text = s.pieces.flatMap Piece.text := by
    rw [Spelling.text, whole]
    exact List.append_nil _
  exact text ▸ tiled_pieces s.pieces

open Source (Leads Silent)

namespace Translator

variable {b : Bookmarks} {t : Translator TextSource} {v w : List Char} {o : Outcome}

/-! Reading tiled text with more behind it. -/

theorem next_token (settles : Scan.Settles .fresh w o) (h : Ready t (w ++ v)) :
    ∃ source, source.unread = v ∧ t.next b =
      settle b { t with source, position := t.position.past w } #[] o := by
  obtain ⟨source, used, parts, -, unread, turn⟩ := next_of_ready b h
  rw [settles.through_append] at parts unread turn
  obtain rfl : w = used := List.append_cancel_right parts
  exact ⟨source, unread, turn⟩

theorem settle_unlocated {o : Outcome} (endless : o.Endless) (b : Bookmarks) (p : Position) :
    ∃ a, a ≠ .ok .ended ∧ ∀ source : TextSource, ∃ events,
      settle b { source, position := p } #[] o =
        ⟨a, { source, held := o.held, position := p }, events⟩ := by
  cases o with
  | plain i held =>
    refine ⟨.ok i, ?_, fun source => ⟨_, rfl⟩⟩
    exact fun ended => endless.1 (Except.ok.inj ended)
  | decoded c => exact ⟨.ok (.char c), nofun, fun source => ⟨_, rfl⟩⟩
  | broken d held => exact ⟨.error (.refused (.malformed p d)), nofun, fun source => ⟨_, rfl⟩⟩

/-- What a token gave back is read alone. -/
theorem reads_back {σ : Type} [Source σ] {t : Translator σ} (opened : t.closed = false)
    (b : Bookmarks) : t.reads (List.replicate t.held.toList.length b) =
      (t.held.toList.map .ok, { t with held := none }) := by
  obtain ⟨source, held, locator, position, closed⟩ := t
  cases opened
  cases held <;> rfl

/-- What tiled text is answered does not depend on what is behind it. -/
theorem reads_tiled (h : Tiled v) (b : Bookmarks) (p : Position) :
    ∃ as, .ok .ended ∉ as ∧ ∀ (source : TextSource) (rest : List Char),
      source.unread = v ++ rest → ∃ source', source'.unread = rest ∧
        reads { source, position := p } (List.replicate as.length b) =
          (as, { source := source', position := p.past v }) := by
  induction h generalizing p with
  | nil => exact ⟨[], List.not_mem_nil, fun source rest unread => ⟨source, unread, rfl⟩⟩
  | @token w v o settles later ih =>
    have endless := settles.endless
    obtain ⟨a, other, settled⟩ := settle_unlocated endless b (p.past w)
    obtain ⟨as, unended, rests⟩ := ih (p.past w)
    refine ⟨a :: (o.held.toList.map .ok ++ as), ?_, ?_⟩
    · apply List.not_mem_cons_of_ne_of_not_mem other.symm
      simpa using ⟨held_ne_ended endless, unended⟩
    · intro source rest unread
      rw [List.append_assoc] at unread
      obtain ⟨source', behind, turn⟩ := next_token (b := b) settles
        (t := { source, position := p }) ⟨rfl, rfl, unread⟩
      obtain ⟨events, same⟩ := settled source'
      obtain ⟨source'', last, later⟩ := rests source' rest behind
      have back := reads_back (b := b)
        (t := { source := source', held := o.held, position := p.past w }) rfl
      refine ⟨source'', last, ?_⟩
      rw [List.length_cons, List.replicate_succ, Translator.reads, turn.trans same,
        List.length_append, List.length_map, ← List.replicate_append_replicate, reads_append,
        back, later, Position.past_append]

/-! Which texts are tiled. A watch over the source shows what has been asked for. -/

/-- Reads of a fresh translator come to the end of the text so that its source has been asked once
for each character and for nothing else, and nothing is held back. -/
def StandsAlone (b : Bookmarks) (text : String) : Prop :=
  ∃ n, let u := ((ofSource (⟨.ofText text, []⟩ : Watched TextSource)).reads (List.replicate n b)).2
    u.source.inner.unread = [] ∧ u.source.calls.length = text.length ∧ u.held = none

theorem silent_watched : Silent (Watched TextSource) :=
  ⟨fun b x => Source.silent_text.next b x.inner, fun x => Source.silent_text.close x.inner⟩

theorem calls_next (b : Bookmarks) (x : Watched TextSource) :
    (Source.next b x).state.calls.length = x.calls.length + 1 := List.length_append

theorem leads_watched {x : Watched TextSource} (unread : x.inner.unread = v ++ w) :
    Leads b (fun y => y.inner.unread = w ∧ y.calls.length = x.calls.length + v.length) v x := by
  induction v generalizing x with
  | nil => exact ⟨unread, rfl⟩
  | cons c v ih =>
    obtain ⟨s, step, rest⟩ := TextSource.source_next_cons b unread
    have answer : (Source.next b x).answer = .ok (.char c) := congrArg Turn.answer step
    have inner : (Source.next b x).state.inner = s := congrArg Turn.state step
    refine ⟨answer, (ih (inner ▸ rest)).imp ?_⟩
    rintro y ⟨behind, calls⟩
    rw [calls_next] at calls
    exact ⟨behind, by rw [calls, List.length_cons]; omega⟩

variable {u : Translator (Watched TextSource)}

theorem watched_token (settles : Scan.Settles .fresh w o) (opened : u.closed = false)
    (free : u.held = none) (unread : u.source.inner.unread = w ++ v) (b : Bookmarks) :
    (u.next b).state.source.inner.unread = v ∧
      (u.next b).state.source.calls.length = u.source.calls.length + w.length ∧
      (u.next b).state.closed = false ∧ (u.next b).state.held = o.held := by
  obtain ⟨source, ⟨rest, calls⟩, scan⟩ :=
    scan_settles (t := u) silent_watched settles (leads_watched unread) #[]
  let u' : Translator (Watched TextSource) :=
    { u with source, position := u.position.past w }
  obtain ⟨from', closed⟩ := settle_state (b := b) (t := u') #[] o
  have held := (settle_rest (b := b) u' free #[] o).2
  rw [next_of_free b opened free, scan, from', closed]
  exact ⟨rest, calls, opened, held⟩

/-- An open start makes the translator ask for the end. -/
theorem watched_start {s : Scan} (reach : Scan.fresh.reach? v = some s) (opened : u.closed = false)
    (free : u.held = none) (unread : u.source.inner.unread = v) (b : Bookmarks) :
    (u.next b).state.source.calls.length = u.source.calls.length + v.length + 1 := by
  have unread : u.source.inner.unread = v ++ [] := unread.trans (List.append_nil v).symm
  obtain ⟨source, ⟨rest, calls⟩, scan⟩ :=
    scan_reached (t := u) silent_watched reach (leads_watched unread) #[]
  have ended : (Source.next b source).answer = .ok .ended :=
    congrArg Turn.answer (TextSource.source_next_nil b rest)
  rw [next_of_free b opened free, scan, scan_settled ended s.feed_ended_eq_final,
    (settle_state _ _).1]
  exact (calls_next b source).trans (congrArg (· + 1) calls)

theorem calls_reads (u : Translator (Watched TextSource)) (bs : List Bookmarks) :
    u.source.calls.length ≤ (u.reads bs).2.source.calls.length := by
  induction bs generalizing u with
  | nil => exact Nat.le_refl _
  | cons b bs ih =>
    refine Nat.le_trans ?_ (ih (u.next b).state)
    let Longer (x : Watched TextSource) : Prop := u.source.calls.length ≤ x.calls.length
    have keeps (b : Bookmarks) (x : Watched TextSource) (longer : Longer x) :
        Longer (Source.next b x).state := by
      unfold Longer
      rw [calls_next]
      exact Nat.le_succ_of_le longer
    exact (next_keeps keeps b (Nat.le_refl _)).1

theorem tiled_of_reads (b : Bookmarks) (n : Nat) (opened : u.closed = false)
    (unread : (u.reads (List.replicate n b)).2.source.inner.unread = [])
    (calls : (u.reads (List.replicate n b)).2.source.calls.length =
      u.source.calls.length + u.source.inner.unread.length) : Tiled u.source.inner.unread := by
  induction n generalizing u with
  | zero =>
    have none : u.source.inner.unread = [] := unread
    rw [none]
    exact .nil
  | succ n ih =>
    rw [List.replicate_succ, reads] at unread calls
    cases held : u.held with
    | some i =>
      have turn := next_of_held b opened held
      rw [turn] at unread calls
      exact ih (u := { u with held := none }) opened unread calls
    | none =>
      rcases Scan.reach_or_settles .fresh u.source.inner.unread with
        ⟨s, reach⟩ | ⟨w, rest, o, parts, settles, -⟩
      · have asked := watched_start reach opened held rfl b
        have never := calls_reads (u.next b).state (List.replicate n b)
        simp only at calls
        omega
      · obtain ⟨behind, counted, opened', -⟩ := watched_token settles opened held parts b
        have later := ih opened' unread (by
          simp only at calls
          rw [calls, counted, behind, parts, List.length_append, Nat.add_assoc])
        rw [parts]
        exact .token settles (behind ▸ later)

theorem reads_of_tiled (b : Bookmarks) (h : Tiled v) (opened : u.closed = false)
    (free : u.held = none) (unread : u.source.inner.unread = v) :
    ∃ n, (u.reads (List.replicate n b)).2.source.inner.unread = [] ∧
      (u.reads (List.replicate n b)).2.source.calls.length = u.source.calls.length + v.length ∧
      (u.reads (List.replicate n b)).2.held = none := by
  induction h generalizing u with
  | nil => exact ⟨0, unread, rfl, free⟩
  | @token w v o settles later ih =>
    obtain ⟨behind, counted, opened', -⟩ := watched_token settles opened free unread b
    have back := reads_back opened' b
    obtain ⟨n, rest, calls, held⟩ :=
      ih (u := { (u.next b).state with held := none }) opened' rfl behind
    refine ⟨(u.next b).state.held.toList.length + n + 1, ?_⟩
    simp only [List.replicate_succ, reads, ← List.replicate_append_replicate, reads_append, back]
    refine ⟨rest, ?_, held⟩
    rw [calls, List.length_append, ← Nat.add_assoc, ← counted]

theorem standsAlone_iff (b : Bookmarks) (text : String) :
    StandsAlone b text ↔ Tiled text.toList := by
  let u : Translator (Watched TextSource) := ofSource ⟨.ofText text, []⟩
  have unread : u.source.inner.unread = text.toList := TextSource.unread_ofText text
  have uncalled : u.source.calls.length = 0 := rfl
  constructor
  · rintro ⟨n, taken, calls, -⟩
    have counted : (u.reads (List.replicate n b)).2.source.calls.length =
        u.source.calls.length + u.source.inner.unread.length := by
      rw [uncalled, unread, String.length_toList, Nat.zero_add]
      exact calls
    exact unread ▸ tiled_of_reads b n rfl taken counted
  · intro tiled
    obtain ⟨n, taken, calls, held⟩ := reads_of_tiled b tiled (u := u) rfl rfl unread
    rw [uncalled, String.length_toList, Nat.zero_add] at calls
    exact ⟨n, taken, calls, held⟩

/-! All results of a text. -/

/-- Reads of `t` are answered `as`, and then the end for good. -/
structure Gives {σ : Type} [Source σ] (b : Bookmarks) (t : Translator σ)
    (as : List (Except Failure Item)) : Prop where
  unended : .ok .ended ∉ as
  reads : ∀ n, (t.reads (List.replicate (as.length + n) b)).1 =
    as ++ List.replicate n (.ok .ended)

/-- A fresh translator over the text, whose first character stands at `p`. -/
def startingAt (p : Position) (text : String) : Translator TextSource :=
  { source := .ofText text, position := p }

theorem gives_unique {σ : Type} [Source σ] {t : Translator σ} {as cs : List (Except Failure Item)}
    (h : Gives b t as) (h' : Gives b t cs) : as = cs := by
  have shorter {as cs : List (Except Failure Item)} (h : Gives b t as) (h' : Gives b t cs) :
      cs <+: as := by
    have both := (h.reads cs.length).symm.trans (Nat.add_comm as.length _ ▸ h'.reads as.length)
    rcases List.append_eq_append_iff.mp both with ⟨x, longer, ends⟩ | ⟨x, longer, -⟩
    · cases x with
      | nil =>
        rw [longer, List.append_nil]
      | cons a x =>
        have ended : a ∈ List.replicate cs.length (.ok .ended) := ends ▸ List.mem_cons_self
        obtain rfl := (List.mem_replicate.mp ended).2
        exact absurd (longer ▸ List.mem_append_right as List.mem_cons_self) h'.unended
    · exact ⟨x, longer.symm⟩
  exact (shorter h' h).eq_of_length_le (shorter h h').length_le

/-- Behind the first end nothing else comes. -/
theorem exists_gives_of_reads {σ : Type} [Source σ] {s : σ} {t : Translator σ}
    (lasting : Source.Lasting s) (h : Faithful s t) {n : Nat}
    (ended : .ok .ended ∈ (t.reads (List.replicate n b)).1) : ∃ as, Gives b t as := by
  induction n generalizing t with
  | zero => cases ended
  | succ n ih =>
    by_cases now : (t.next b).answer = .ok .ended
    · refine ⟨[], List.not_mem_nil, ?_⟩
      intro m
      rw [List.length_nil, Nat.zero_add]
      cases m with
      | zero => rfl
      | succ m =>
        rw [List.replicate_succ, Translator.reads, now,
          reads_finished (finished_of_next lasting h now), List.length_replicate]
        rfl
    · rw [List.replicate_succ, Translator.reads] at ended
      obtain ⟨as, unended, later⟩ :=
        ih (next_faithful h b) ((List.mem_cons.mp ended).resolve_left (Ne.symm now))
      refine ⟨(t.next b).answer :: as, ?_, ?_⟩
      · exact List.not_mem_cons_of_ne_of_not_mem (Ne.symm now) unended
      · intro m
        rw [List.length_cons, Nat.add_right_comm, List.replicate_succ, Translator.reads, later]
        rfl

theorem exists_gives (b : Bookmarks) (text : String) :
    ∃ as, Gives b (startingAt .start text) as := by
  have bounded := bounded_ofText text
  have lasting := TextSource.lasting (.ofText text)
  have faithful : Faithful (.ofText text) (startingAt .start text) := faithful_ofSource _
  have ends := reads_ends lasting faithful
    ⟨within_fresh bounded.answers none, within_fresh bounded.chars none,
      within_fresh bounded.bytes none⟩
  apply exists_gives_of_reads lasting faithful (n := text.length + 1)
  apply (ends _).reaches
  rw [length_reads, List.length_replicate]
  exact Nat.lt_succ_self _

/-- Texts that still have the same to come answer alike. -/
theorem alike_unread : Source.Alike b fun s s' : TextSource => s.unread = s'.unread := by
  constructor
  · intro s s' same
    cases unread : s'.unread with
    | nil =>
      rw [TextSource.source_next_nil b (same.trans unread), TextSource.source_next_nil b unread]
    | cons c v =>
      obtain ⟨x, step, -⟩ := TextSource.source_next_cons b (same.trans unread)
      obtain ⟨x', step', -⟩ := TextSource.source_next_cons b unread
      rw [step, step']
  · intro s s' same
    cases unread : s'.unread with
    | nil =>
      rw [TextSource.source_next_nil b (same.trans unread), TextSource.source_next_nil b unread]
      exact same
    | cons c v =>
      obtain ⟨x, step, rest⟩ := TextSource.source_next_cons b (same.trans unread)
      obtain ⟨x', step', rest'⟩ := TextSource.source_next_cons b unread
      rw [step, step']
      exact rest.trans rest'.symm

theorem reads_like {σ τ : Type} [Source σ] [Source τ] {R : σ → τ → Prop} {t : Translator σ}
    {u : Translator τ} (alike : ∀ b, Source.Alike b R) (h : Like R t u) (bs : List Bookmarks) :
    (t.reads bs).1 = (u.reads bs).1 := by
  induction bs generalizing t u with
  | nil => rfl
  | cons b bs ih =>
    obtain ⟨answer, state⟩ := next_like (alike b) h
    rw [reads, reads, answer, ih state]

theorem gives_startingAt {text : String} {as : List (Except Failure Item)} (p : Position)
    (h : Gives b (startingAt .start text) as) :
    Gives b (startingAt p text) (as.map (answerBehind p)) := by
  have displaced : Displaced p (startingAt .start text) (startingAt p text) := ⟨rfl, [], rfl, rfl⟩
  constructor
  · intro ended
    obtain ⟨a, mem, same⟩ := List.mem_map.mp ended
    cases a with
    | error f => cases same
    | ok i =>
      cases same
      exact h.unended mem
  · intro n
    rw [reads_displaced displaced, List.length_map, h.reads, List.map_append, List.map_replicate]
    rfl

theorem gives_append {s t : String} (tiled : Tiled s.toList) {as cs : List (Except Failure Item)}
    (first : Gives b (startingAt .start s) as) (second : Gives b (startingAt .start t) cs) :
    Gives b (startingAt .start (s ++ t))
      (as ++ cs.map (answerBehind (Position.start.past s.toList))) := by
  let p := Position.start.past s.toList
  obtain ⟨front, unended, reads⟩ := reads_tiled tiled b .start
  have alone : Gives b (startingAt .start s) front := by
    obtain ⟨source, rest, taken⟩ := reads (.ofText s) []
      ((TextSource.unread_ofText s).trans (List.append_nil _).symm)
    refine ⟨unended, ?_⟩
    intro n
    have done : Finished ({ source, position := p } : Translator TextSource) :=
      ⟨rfl, .inl rfl, TextSource.ended rest⟩
    have same : startingAt .start s = { source := .ofText s, position := .start } := rfl
    rw [← List.replicate_append_replicate, reads_append, same, taken, reads_finished done,
      List.length_replicate]
  obtain rfl := gives_unique alone first
  have moved := gives_startingAt p second
  obtain ⟨source, rest, taken⟩ := reads (.ofText (s ++ t)) t.toList (by
    rw [TextSource.unread_ofText, String.toList_append])
  constructor
  · intro ended
    rcases List.mem_append.mp ended with mine | other
    · exact unended mine
    · exact moved.unended other
  · intro n
    have like : Like (fun s s' : TextSource => s.unread = s'.unread)
        { source, position := p } (startingAt p t) :=
      ⟨rfl, rfl, rfl, rfl, fun _ => rest.trans (TextSource.unread_ofText t).symm⟩
    have same : startingAt .start (s ++ t) = { source := .ofText (s ++ t), position := .start } :=
      rfl
    rw [List.length_append, Nat.add_assoc, ← List.replicate_append_replicate, reads_append, same,
      taken, reads_like (fun b => alike_unread) like, moved.reads, List.append_assoc]

/-- Every text gives results of its own, the same whatever place it begins at but for the places
that are cited. A spelling without a lone backslash at its end stands alone, whatever it is. And
where a text stands alone, be it with refusals, it gives its own results with any text behind it,
and the text behind gives what it gives from the place where the first one ends. -/
theorem results_append (b : Bookmarks) :
    (∀ text, ∃! as, Gives b (startingAt .start text) as) ∧
    (∀ p text as, Gives b (startingAt .start text) as →
      Gives b (startingAt p text) (as.map (answerBehind p))) ∧
    (∀ s : Spelling, s.trailing = false → StandsAlone b (String.ofList s.text)) ∧
    ∀ s t as cs, StandsAlone b s → Gives b (startingAt .start s) as →
      Gives b (startingAt .start t) cs → Gives b (startingAt .start (s ++ t))
        (as ++ cs.map (answerBehind (Position.start.past s.toList))) := by
  refine ⟨?_, fun p text as => gives_startingAt p, ?_, ?_⟩
  · intro text
    obtain ⟨as, gives⟩ := exists_gives b text
    exact ⟨as, gives, fun cs others => gives_unique others gives⟩
  · intro s whole
    rw [standsAlone_iff, String.toList_ofList]
    exact s.tiled whole
  · intro s t as cs alone
    exact gives_append ((standsAlone_iff b s).mp alone)

/-- A line, and an escape behind it that breaks off: its refusal is cited on the second line. -/
theorem line_results_append :
    StandsAlone {} "A\n" ∧ ∃ as cs, Gives {} (startingAt .start "A\n") as ∧
      Gives {} (startingAt .start "\\u") cs ∧
      Gives {} (startingAt .start ("A\n" ++ "\\u")) (as ++ cs.map (answerBehind ⟨2, 1, 2⟩)) := by
  obtain ⟨results, -, whole, append⟩ := results_append {}
  let line : Spelling := ⟨[.plain 'A' (by decide), .plain '\n' (by decide)], false⟩
  have alone : StandsAlone {} "A\n" := whole line rfl
  obtain ⟨as, first, -⟩ := results "A\n"
  obtain ⟨cs, second, -⟩ := results "\\u"
  exact ⟨alone, as, cs, first, second, append _ _ _ _ alone first second⟩

end Translator
end EscapedText
