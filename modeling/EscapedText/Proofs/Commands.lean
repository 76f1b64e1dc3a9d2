import EscapedText.Proofs.Buffering
import EscapedText.Proofs.Decoding

/-!
Runs of the command. What a run leaves behind is decided by what its output is when it has been made
ready, and by what a plain translator reads of the input after that: all that was read is in the
output, whether it came to the end or was cut short, and nothing else has changed.
-/
namespace EscapedText.World

open ByteSource (Reads)
open Session (outcome)

variable (serve : World → Channel → List ReadStep) {w w₁ w₂ : World} {out c : Channel}
  {o : Options} {enables : LogRecord → Bool}

theorem run_bind {α β : Type} (x : StateM World α) (f : α → StateM World β) (w : World) :
    (x >>= f).run w = (f (x.run w).1).run (x.run w).2 := rfl

theorem run'_bind {α β : Type} (x : StateT (Array UInt8) (StateM World) α)
    (f : α → StateT (Array UInt8) (StateM World) β) (waiting : Array UInt8) (w : World) :
    ((x >>= f).run' waiting).run w = ((f ((x.run waiting).run w).1.1).run'
      ((x.run waiting).run w).1.2).run ((x.run waiting).run w).2 := rfl

/-! Copies. -/

section Copies

variable {device : List ReadStep} {mark : Bookmark} {s u : Session ByteSource} {cs : List Char}
  {a : Except Failure Item} {effects : List Effect}

theorem check_run (begun : Session.followed device = (mark, s))
    (copies : s.Copies .wrapping mark cs a effects u) (w : World) :
    ((hostWith serve).check enables device).run w =
      ((outcome a (.ofNat cs.length), u), effects.foldl (told enables) w) := by
  have nowhere : Accepts (fun _ => pure () : List UInt8 → StateM World Unit) none := fun _ => rfl
  simp only [Host.check, begun, Session.copy,
    Session.copyFrom_of_copies nowhere copies, UInt64.zero_add]
  rw [run_bind, effects_run_nowhere]
  rfl

/-- What waits when a copy has stopped is flushed, whatever it has stopped at. -/
theorem settle_run (accepts : out ≠ .full) (result : Except Halt UInt64) (b : Buffered) :
    (((hostWith serve).settle out result).run b.waiting).run b.world =
      ((result, #[]), b.flushed out) := by
  have flush := flush_run accepts b.waiting b.world
  cases result with
  | error h =>
    rw [Host.settle, pure_bind, StateT.run_bind, run_bind]
    simp only [hostWith, flush]
    rfl
  | ok count =>
    -- The second flush finds nothing that waits.
    have again := flush_run accepts #[] (b.flushed out)
    rw [Host.settle, StateT.run_bind, run_bind]
    simp only [hostWith, flush, pure_bind]
    rw [StateT.run_bind, run_bind, again]
    rfl

theorem translate_run (accepts : out ≠ .full) (begun : Session.followed device = (mark, s))
    (copies : s.Copies .wrapping mark cs a effects u) (w : World) :
    ((hostWith serve).translate enables device out).run w =
      ((outcome a (.ofNat cs.length), u),
        (effects.foldl (did enables out) ⟨#[], w⟩).flushed out) := by
  have log : (fun e => ((hostWith serve).log enables e.record : StateT _ (StateM World) Unit)) =
      logging serve enables := rfl
  have write : (hostWith serve).write = write := rfl
  simp only [Host.translate, begun, Session.copy, log, write,
    Session.copyFrom_of_copies (accepts_put accepts) copies, UInt64.zero_add, bind_assoc, pure_bind]
  rw [run'_bind, effects_run effects ⟨#[], w⟩, run'_bind, settle_run serve accepts]
  rfl

end Copies

/-! Messages. -/

/-- Whatever the world, `x` answers `a` and gives `messages`, and that is all. -/
def Says {α : Type} (x : StateM World α) (a : α) (messages : List Message) : Prop :=
  ∀ w : World, x.run w = (a, { w with standardError := w.standardError ++ messages })

theorem Says.untouched {α : Type} {x : StateM World α} {a : α} {messages : List Message}
    (h : Says x a messages) (w : World) : Untouched w (x.run w).2 := by
  rw [h w]
  exact ⟨rfl, rfl, rfl⟩

theorem says_pure {α : Type} (a : α) : Says (pure a) a [] := by
  intro w
  rw [List.append_nil]
  rfl

theorem Says.bind {α β : Type} {x : StateM World α} {f : α → StateM World β} {a : α} {b : β}
    {messages later : List Message} (h : Says x a messages) (h' : Says (f a) b later) :
    Says (x >>= f) b (messages ++ later) := by
  intro w
  rw [run_bind, h w, h', List.append_assoc]

theorem says_report (message : Message) : Says ((hostWith serve).report message) () [message] :=
  fun _ => rfl

theorem says_fail (causes : List String) :
    Says ((hostWith serve).fail causes) 1 [.failure causes] :=
  (says_report serve _).bind (says_pure 1)

theorem says_log (enables : LogRecord → Bool) (r : LogRecord) :
    ∃ messages, Says ((hostWith serve).log enables r) () messages := by
  unfold Host.log
  split
  · exact ⟨_, says_report serve _⟩
  · exact ⟨_, says_pure ()⟩

theorem says_logs (enables : LogRecord → Bool) (events : List Event) :
    ∃ messages, Says (forM events fun e => (hostWith serve).log enables e.record) () messages := by
  induction events with
  | nil => exact ⟨_, says_pure ()⟩
  | cons e events ih =>
    obtain ⟨first, one⟩ := says_log serve enables e.record
    obtain ⟨later, all⟩ := ih
    rw [List.forM_cons]
    exact ⟨_, one.bind all⟩

/-- The exit code behind the last answer that was read. -/
def codeOf : Except Failure Item → Nat
  | .ok _ => 0
  | .error _ => 1

theorem codeOf_unplaced {a a' : Except Failure Item} (h : unplaced a = unplaced a') :
    codeOf a = codeOf a' := by
  rcases unplaced_cases h with ⟨i, rfl, rfl⟩ | ⟨f, f', rfl, rfl, -⟩ <;> rfl

theorem close_answer (t : Translator ByteSource) : t.close.answer = .ok () := by
  unfold Translator.close
  split <;> rfl

/-- Closing fails nowhere, so a run that has copied all ends well. -/
theorem conclude_ended (name : String) (n : UInt64) (u : Session ByteSource) :
    (hostWith serve).conclude enables name (.ok n, u) = (do
      forM u.translator.close.events.toList fun e => (hostWith serve).log enables e.record
      (hostWith serve).log enables (.finished name n.toNat)
      return 0) := by
  simp only [Host.conclude, close_answer]

/-- Whatever a copy has stopped at, the end of the run reports and does nothing else. -/
theorem says_conclude (enables : LogRecord → Bool) (name : String) {a : Except Failure Item}
    (stop : ∀ c, a ≠ .ok (.char c)) (n : UInt64) (u : Session ByteSource) :
    ∃ messages, Says ((hostWith serve).conclude enables name (outcome a n, u)) (codeOf a)
      messages := by
  cases a with
  | error f => exact ⟨_, says_fail serve _⟩
  | ok i =>
    cases i with
    | char c => exact absurd rfl (stop c)
    | ended =>
      obtain ⟨closing, logs⟩ := says_logs serve enables u.translator.close.events.toList
      obtain ⟨finished, log⟩ := says_log serve enables (.finished name n.toNat)
      rw [outcome, conclude_ended]
      exact ⟨_, logs.bind (log.bind (says_pure 0))⟩

/-! Runs with the options read. -/

theorem input_run (o : Options) (w : World) :
    ((hostWith serve).input o).run w = (w.inputOf o, w) := by
  unfold Host.input inputOf
  cases o.file? <;> rfl

theorem output_run (o : Options) (w : World) :
    ((hostWith serve).output o).run w = match w.outputOf o with
      | .ok (out, w₁) => (.ok out, w₁)
      | .error f => (.error (o.output.getD [], f), w) := by
  unfold Host.output outputOf
  cases o.output with
  | none => rfl
  | some path =>
    dsimp only [hostWith, Option.getD_some]
    simp only [createOutput, StateT.run_bind, StateT.run_get, pure_bind]
    cases w.disk.create path with
    | ok made => rfl
    | error f => rfl

variable {Args Setting : Type} (lib : Library Args Setting) (enables)

theorem runWith_unopened {f : Fault} (unopened : w.inputOf o = .error f) :
    ((hostWith serve).runWith lib o enables).run w =
      (1, tell (.failure ["failed to open " ++ lib.nameOf o, f.message]) w) := by
  simp only [Host.runWith, run_bind, input_run, unopened]
  exact says_fail serve _ w

theorem runWith_uncreated {f : Fault} (writes : o.check = false) (opened : w.inputOf o = .ok c)
    (uncreated : w.outputOf o = .error f) :
    (((hostWith serve).runWith lib o enables).run w).1 = 1 := by
  simp only [Host.runWith, run_bind, input_run, opened, writes, Bool.false_eq_true, if_false,
    output_run, uncreated]
  rfl

theorem runWith_check (check : o.check = true) (opened : w.inputOf o = .ok c) :
    ((hostWith serve).runWith lib o enables).run w =
      ((hostWith serve).check enables (serve w c) >>=
        (hostWith serve).conclude enables (lib.nameOf o)).run w := by
  simp only [Host.runWith, run_bind, input_run, opened, check, if_true]
  rfl

theorem runWith_translate (writes : o.check = false) (opened : w.inputOf o = .ok c)
    (made : w.outputOf o = .ok (out, w₁)) :
    ((hostWith serve).runWith lib o enables).run w =
      ((hostWith serve).translate enables (serve w₁ c) out >>=
        (hostWith serve).conclude enables (lib.nameOf o)).run w₁ := by
  simp only [Host.runWith, run_bind, input_run, opened, writes, Bool.false_eq_true, if_false,
    output_run, made]
  rfl

theorem told_untouched (enables : LogRecord → Bool) (effects : List Effect) (w : World) :
    Untouched w (effects.foldl (told enables) w) := by
  induction effects generalizing w with
  | nil => exact .refl w
  | cons effect effects ih =>
    refine .trans ?_ (ih _)
    cases effect with
    | logged e => exact logged_untouched enables e.record w
    | handedOn bytes => exact .refl w

/-- What the command copies, and where it stops. -/
theorem exists_copied (device : List ReadStep) :
    ∃ mark s cs a effects u, Session.followed device = (mark, s) ∧
      s.Copies .wrapping mark cs a effects u ∧ ∀ c, a ≠ .ok (.char c) := by
  obtain ⟨cs, last, reads⟩ := ByteSource.exists_reads device
  obtain ⟨⟨mark, s⟩, begun⟩ : ∃ both, Session.followed device = both := ⟨_, rfl⟩
  obtain ⟨a, effects, u, copies, same⟩ := ByteSource.copies_of_reads reads begun
  refine ⟨mark, s, cs, a, effects, u, begun, copies, ?_⟩
  intro c answer
  exact reads.stop c (Translator.item_of_unplaced same.symm answer)

/-- A check reports and does nothing else. -/
theorem runWith_untouched (check : o.check = true) (w : World) :
    Untouched w (((hostWith serve).runWith lib o enables).run w).2 := by
  cases opened : w.inputOf o with
  | error f =>
    rw [runWith_unopened serve enables lib opened]
    exact untouched_tell _ w
  | ok c =>
    obtain ⟨mark, s, cs, a, effects, u, begun, copies, stop⟩ := exists_copied (serve w c)
    obtain ⟨messages, concluded⟩ :=
      says_conclude serve enables (lib.nameOf o) stop (.ofNat cs.length) u
    rw [runWith_check serve enables lib check opened, run_bind, check_run serve begun copies]
    exact (told_untouched enables effects w).trans (concluded.untouched _)

/-- All that has been read is in the output, whether it came to the end or was cut short. -/
theorem runWith_delivers {cs : List Char} {last : Except Failure Item} (writes : o.check = false)
    (opened : w.inputOf o = .ok c) (made : w.outputOf o = .ok (out, w₁)) (accepts : out ≠ .full)
    (reads : Reads (serve w₁ c) cs last) :
    let left := ((hostWith serve).runWith lib o enables).run w
    left.1 = codeOf last ∧ Spared out w left.2 ∧
      ((w₁.kept? out).isSome → Delivered out (cs.flatMap Utf8.encode) w left.2) := by
  intro left
  obtain ⟨⟨mark, s⟩, begun⟩ : ∃ both, Session.followed (serve w₁ c) = both := ⟨_, rfl⟩
  obtain ⟨a, effects, u, copies, same⟩ := ByteSource.copies_of_reads reads begun
  have stop : ∀ c, a ≠ .ok (.char c) := by
    intro c answer
    exact reads.stop c (Translator.item_of_unplaced same.symm answer)
  obtain ⟨messages, concluded⟩ :=
    says_conclude serve enables (lib.nameOf o) stop (.ofNat cs.length) u
  have run : left = _ := runWith_translate serve enables lib writes opened made
  rw [run_bind, translate_run serve accepts begun copies, concluded] at run
  -- What was handed on is carried past the log to the flush.
  have carried := effects_carried enables out effects ⟨#[], w₁⟩
  rw [copies.bytes, ← List.flatMap_def] at carried
  have ready := outputOf_ready made
  have told := concluded.untouched ((effects.foldl (did enables out) ⟨#[], w₁⟩).flushed out)
  rw [concluded] at told
  have fed := (carried.fed.trans (flushed_fed out _)).trans (told.fed out)
  rw [run]
  refine ⟨codeOf_unplaced same, ready.spared.fed fed, ?_⟩
  intro keeps
  obtain ⟨old, before⟩ := Option.isSome_iff_exists.mp keeps
  obtain ⟨more, written, order⟩ := carried.kept old before
  apply delivered_of_kept ready fed before
  rw [kept_untouched told, flushed_kept written, List.append_assoc, order]
  rfl

/-! Whole runs. -/

variable {args : Args} {setting : Setting} {enables}

theorem exists_filter (sets : lib.readFilter setting ≠ .brokenOff) (verbosity : Nat) :
    ∃ enables, lib.filter? setting verbosity = some enables := by
  unfold Library.filter?
  split
  · exact ⟨_, rfl⟩
  · exact ⟨_, rfl⟩
  · contradiction

theorem run_of_parsed (parsed : lib.parse args = .ok o)
    (filter : lib.filter? setting o.verbosity = some enables) :
    (hostWith serve).run lib args setting = (hostWith serve).runWith lib o enables := by
  simp only [Host.run, parsed, filter]

/-- A run that breaks off while its filter is read has done nothing by then. -/
theorem run_of_brokenOff (parsed : lib.parse args = .ok o)
    (breaks : lib.readFilter setting = .brokenOff) (w : World) :
    ((hostWith serve).run lib args setting).run w = (101, tell .brokenOff w) := by
  simp only [Host.run, parsed, Library.filter?, breaks]
  rfl

/-- If the input cannot be opened the run fails, and if it only checks it is quiet: both leave all
as it was. If reading is stopped by a failure, wherever that strikes, the run fails, and an output
that keeps what it is given holds all that was read before. -/
theorem run_failing_or_checking (parsed : lib.parse args = .ok o)
    (sets : lib.readFilter setting ≠ .brokenOff) (w : World) :
    let left := ((hostWith serve).run lib args setting).run w
    (∀ f, w.inputOf o = .error f → left.1 = 1 ∧ Untouched w left.2) ∧
    (o.check = true → Untouched w left.2) ∧
    ∀ c out w₁ cs f, o.check = false → w.inputOf o = .ok c → w.outputOf o = .ok (out, w₁) →
      out ≠ .full → Reads (serve w₁ c) cs (.error f) →
      left.1 = 1 ∧ Spared out w left.2 ∧
        ((w₁.kept? out).isSome → Delivered out (cs.flatMap Utf8.encode) w left.2) ∧
        (cs.flatMap Utf8.encode).toByteArray.IsValidUTF8 := by
  intro left
  obtain ⟨enables, filter⟩ := exists_filter lib sets o.verbosity
  have run : left = ((hostWith serve).runWith lib o enables).run w :=
    congrArg (fun x => x.run w) (run_of_parsed serve lib parsed filter)
  rw [run]
  refine ⟨?_, ?_, ?_⟩
  · intro f unopened
    rw [runWith_unopened serve enables lib unopened]
    exact ⟨rfl, untouched_tell _ w⟩
  · intro check
    exact runWith_untouched serve enables lib check w
  · intro c out w₁ cs f writes opened made accepts reads
    obtain ⟨code, spared, kept⟩ :=
      runWith_delivers serve enables lib writes opened made accepts reads
    exact ⟨code, spared, kept, Utf8.isValidUTF8_iff.mpr ⟨cs, rfl⟩⟩

/-! Examples share a library that reads a few arguments and breaks off at one setting. -/

def pathOf (name : String) : Path := name.toList.flatMap Utf8.encode

def sparse : Library (List String) (Option String) where
  parse
    | [] => .ok {}
    | ["--check"] => .ok { check := true }
    | ["-o", out] => .ok { output := some (pathOf out) }
    | [input] => .ok { input := some (pathOf input) }
    | [input, "-o", out] => .ok { input := some (pathOf input), output := some (pathOf out) }
    | _ => .error { code := 2 }
  readFilter setting := if setting = some "\u00a0a=warn" then .brokenOff else .refused
  filterOf directive r := r.level.rank ≤
    if directive = "warn" then 2 else if directive = "debug" then 4 else 5
  display path := (String.fromUTF8? ⟨path.toArray⟩).getD ""

/-- A letter and a byte that opens no sequence, and a device that keeps nothing. -/
def damaged : World where
  disk := {
    names := [((0, pathOf "in"), 2), ((0, pathOf "null"), 3)]
    entries := [(2, .file [0x61, 0xFF]), (3, .void)] }

theorem reads_damaged : Reads [.bytes [0x61, 0xFF]] ['a']
    (.error (.source (ByteSource.invalid 1))) := by
  let t := Translator.ofSource (ByteSource.ofDevice [.bytes [0x61, 0xFF]])
  let u : Translator ByteSource :=
    { source := ⟨[], [0xFF], 1, false⟩, position := ⟨1, 2, 1⟩ }
  have scan : t.scan {} .fresh #[] = Translator.settle {} u #[] (.plain (.char 'a') none) :=
    Translator.scan_settled (t := t) rfl rfl
  have letter : t.next {} = ⟨.ok (.char 'a'), u, #[]⟩ :=
    (Translator.next_of_free {} rfl rfl).trans scan
  have damage : u.next {} = ⟨.error (.source (ByteSource.invalid 1)), _, _⟩ :=
    (Translator.next_of_free {} rfl rfl).trans (Translator.scan_fault rfl)
  refine ⟨⟨u, ?_, congrArg Turn.answer damage⟩, nofun⟩
  apply Translator.yields_cons_iff.mpr
  rw [letter]
  exact ⟨rfl, Translator.yields_nil u⟩

theorem damaged_fails :
    sparse.parse ["in", "-o", "out"] =
      .ok { input := some (pathOf "in"), output := some (pathOf "out") } ∧
    sparse.readFilter none ≠ .brokenOff ∧
    (damaged.run sparse ["in", "-o", "out"] none).1 = 1 ∧
    (damaged.run sparse ["in", "-o", "out"] none).2.disk.get? 4 = some (.file [0x61]) ∧
    (damaged.run sparse ["in", "-o", "out"] none).2.disk.get? 2 = some (.file [0x61, 0xFF]) := by
  have parsed : sparse.parse ["in", "-o", "out"] =
      .ok { input := some (pathOf "in"), output := some (pathOf "out") } := rfl
  have sets : sparse.readFilter none ≠ .brokenOff := nofun
  obtain ⟨-, -, failed⟩ := run_failing_or_checking brings sparse parsed sets damaged
  obtain ⟨code, -, kept, -⟩ := failed (.node 2) (.node 4) _ ['a'] _ rfl rfl rfl nofun reads_damaged
  have delivered := kept rfl
  exact ⟨parsed, sets, code, delivered.file 4 rfl, delivered.entries 2 (by decide)⟩

/-- A setting can break the run off, with an input that is not there. And a device that keeps
nothing holds nothing of what was read. -/
theorem broken_setting_unopened :
    sparse.parse ["none"] = .ok { input := some (pathOf "none") } ∧
    damaged.inputOf { input := some (pathOf "none") } = .error Disk.notFound ∧
    (damaged.run sparse ["none"] (some "\u00a0a=warn")).1 = 101 ∧
    sparse.parse ["in", "-o", "null"] =
      .ok { input := some (pathOf "in"), output := some (pathOf "null") } ∧
    (damaged.run sparse ["in", "-o", "null"] none).1 = 1 ∧
    (damaged.run sparse ["in", "-o", "null"] none).2.disk.get? 3 = some .void := by
  have unopened : sparse.parse ["none"] = .ok { input := some (pathOf "none") } := rfl
  have breaks : sparse.readFilter (some "\u00a0a=warn") = .brokenOff := by
    simp only [sparse, if_true]
  have broken := run_of_brokenOff brings sparse unopened breaks damaged
  have parsed : sparse.parse ["in", "-o", "null"] =
      .ok { input := some (pathOf "in"), output := some (pathOf "null") } := rfl
  have run : damaged.run sparse ["in", "-o", "null"] none =
      ((hostWith brings).runWith sparse _ (sparse.filterOf "warn")).run damaged :=
    congrArg (fun x => x.run damaged) (run_of_parsed brings sparse parsed rfl)
  obtain ⟨code, spared, -⟩ := runWith_delivers brings (sparse.filterOf "warn") sparse
    (w := damaged) (o := { input := some (pathOf "in"), output := some (pathOf "null") })
    (c := .node 2) rfl rfl rfl nofun reads_damaged
  rw [run]
  exact ⟨unopened, rfl, congrArg Prod.fst broken, parsed, code, spared.devices 3 .void rfl nofun⟩

end EscapedText.World
