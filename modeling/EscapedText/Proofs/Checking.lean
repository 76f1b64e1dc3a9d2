import EscapedText.Proofs.Translations

/-!
Checking. A check copies as a run with an output does, but hands nothing on. Step by step the two
leave the same world, messages and all, but for what the output is given.
-/
namespace EscapedText.World

variable (serve : World → Channel → List ReadStep) {enables : LogRecord → Bool} {o : Options}
  {w : World}

/-- The world with `bytes` for its standard output. -/
def holding (bytes : List UInt8) (w : World) : World := { w with standardOutput := bytes }

/-- Written to the standard output or not, the bytes that wait do not show elsewhere. -/
theorem holding_flushed (bytes : List UInt8) (b : Buffered) :
    holding bytes (b.flushed (.stream .output)) = holding bytes b.world := by
  unfold Buffered.flushed
  split <;> rfl

theorem holding_logged (bytes : List UInt8) (r : LogRecord) (w : World) :
    logged enables r (holding bytes w) = holding bytes (logged enables r w) := by
  unfold logged
  split <;> rfl

/-- A single effect leaves the same with a buffer and without. -/
theorem told_holding (bytes : List UInt8) (b : Buffered) (effect : Effect) :
    told enables (holding bytes b.world) effect =
      holding bytes (did enables (.stream .output) b effect).world := by
  cases effect with
  | logged e => exact holding_logged bytes e.record b.world
  | handedOn given =>
    simp only [told, did, Buffered.put]
    split
    · rfl
    · exact (holding_flushed bytes b).symm

theorem effects_holding (bytes : List UInt8) (effects : List Effect) (b : Buffered) :
    effects.foldl (told enables) (holding bytes b.world) =
      holding bytes (effects.foldl (did enables (.stream .output)) b).world := by
  induction effects generalizing b with
  | nil => rfl
  | cons effect effects ih => rw [List.foldl_cons, List.foldl_cons, told_holding, ih]

variable {Args Setting : Type} (lib : Library Args Setting) (enables)

/-- With the options read, a check ends as a run to the standard output does. -/
theorem runWith_checking (writes : o.check = false) (standard : o.output = none) (w : World) :
    let written := ((hostWith serve).runWith lib o enables).run w
    ((hostWith serve).runWith lib o.checking enables).run w =
      (written.1, holding w.standardOutput written.2) := by
  intro written
  cases opened : w.inputOf o with
  | error f =>
    have unopened : w.inputOf o.checking = .error f := opened
    have run : written = _ := runWith_unopened serve enables lib opened
    rw [run, runWith_unopened serve enables lib unopened]
    rfl
  | ok c =>
    have opened' : w.inputOf o.checking = .ok c := opened
    have made : w.outputOf o = .ok (.stream .output, w) := by rw [outputOf, standard]
    have named : lib.nameOf o.checking = lib.nameOf o := rfl
    obtain ⟨mark, s, cs, a, effects, u, begun, copies, stop⟩ := exists_copied (serve w c)
    obtain ⟨messages, concluded⟩ :=
      says_conclude serve enables (lib.nameOf o) stop (.ofNat cs.length) u
    have accepts : Channel.stream .output ≠ .full := nofun
    have run : written = _ := runWith_translate serve enables lib writes opened made
    rw [run_bind, translate_run serve accepts begun copies, concluded] at run
    -- Both have read the same, so they differ only in what they have done with it.
    have same : effects.foldl (told enables) w = holding w.standardOutput
        ((effects.foldl (did enables (.stream .output)) ⟨#[], w⟩).flushed (.stream .output)) := by
      rw [holding_flushed]
      exact effects_holding w.standardOutput effects ⟨#[], w⟩
    rw [run, runWith_check serve enables lib rfl opened', run_bind, check_run serve begun copies,
      named, concluded, same]
    rfl

variable {args args' : Args}

/-- A run that checks and one that writes to the standard output have the same exit code and leave
the same world, messages and all, but for what the second has written. -/
theorem check_agrees (parsed : lib.parse args = .ok o) (parsed' : lib.parse args' = .ok o.checking)
    (writes : o.check = false) (standard : o.output = none) (setting : Setting) (w : World) :
    let checked := ((hostWith serve).run lib args' setting).run w
    let written := ((hostWith serve).run lib args setting).run w
    checked.1 = written.1 ∧
      checked.2 = { written.2 with standardOutput := w.standardOutput } := by
  have same : ((hostWith serve).run lib args' setting).run w =
      ((((hostWith serve).run lib args setting).run w).1,
        holding w.standardOutput (((hostWith serve).run lib args setting).run w).2) := by
    have chosen : lib.filter? setting o.checking.verbosity = lib.filter? setting o.verbosity := rfl
    simp only [Host.run, parsed, parsed', chosen]
    cases lib.filter? setting o.verbosity with
    | none => rfl
    | some enables => exact runWith_checking serve enables lib writes standard w
  exact Prod.mk.inj same

theorem piped_check_agrees :
    sparse.parse [] = .ok {} ∧ sparse.parse ["--check"] = .ok (Options.checking {}) ∧
    (piped.run sparse ["--check"] none).1 = 0 ∧ (piped.run sparse [] none).1 = 0 ∧
    (piped.run sparse ["--check"] none).2.standardOutput = [] ∧
    (piped.run sparse [] none).2.standardOutput = "A".toList.flatMap Utf8.encode := by
  have parsed : sparse.parse [] = .ok {} := rfl
  have parsed' : sparse.parse ["--check"] = .ok (Options.checking {}) := rfl
  have sets : sparse.readFilter none ≠ .brokenOff := nofun
  obtain ⟨code, left⟩ := check_agrees brings sparse parsed parsed' rfl rfl none piped
  obtain ⟨well, delivered⟩ := run_of_translate? (w := piped) faithful_brings parsed sets rfl rfl rfl
    nofun rfl translate?_escapedA
  exact ⟨parsed, parsed', code.trans well, well, congrArg standardOutput left,
    (delivered rfl).stream rfl⟩

end EscapedText.World
