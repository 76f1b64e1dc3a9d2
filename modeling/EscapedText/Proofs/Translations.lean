import EscapedText.Proofs.Commands

/-!
Runs that end well. The input is read when the output has been made ready, and that has emptied it
if the two are one file, by whatever names. Otherwise the output holds the translation of what the
input held before the run.
-/
namespace EscapedText.World

open ByteSource (Reads)

/-- Reads of an entry bring what it holds in pieces of any size, and fail where there is nothing to
read. -/
structure Faithful (serve : World → Channel → List ReadStep) : Prop where
  brings : ∀ w n v, w.held? n = some v → ByteSource.Brings (serve w (.node n)) v
  fails : ∀ w n, w.held? n = none → ∃ f later, serve w (.node n) = .failed f :: later

variable {serve : World → Channel → List ReadStep} {w w₁ : World} {out : Channel} {o : Options}
  {n : Nat}

theorem brings_atOnce (v : List UInt8) :
    ByteSource.Brings (if v = [] then [] else [.bytes v]) v := by
  split
  · rename_i nothing
    subst nothing
    exact ⟨⟨[], nofun, rfl⟩, rfl⟩
  · rename_i something
    exact ⟨⟨[v], by simpa using something, by simp⟩, rfl⟩

/-- Reads bring what is held at once, and a directory cannot be read. -/
theorem brings_cases (w : World) (n : Nat) :
    (∃ v, w.held? n = some v ∧ ByteSource.Brings (w.brings (.node n)) v) ∨
      w.held? n = none ∧ w.brings (.node n) = [.failed Disk.isDirectory] := by
  simp only [held?, brings, Disk.device]
  cases w.disk.get? n with
  | none => exact .inl ⟨[], rfl, brings_atOnce []⟩
  | some e =>
    cases e with
    | directory => exact .inr ⟨rfl, rfl⟩
    | file bytes | inflow bytes => exact .inl ⟨bytes, rfl, brings_atOnce bytes⟩
    | void | full | stream s => exact .inl ⟨[], rfl, brings_atOnce []⟩

theorem faithful_brings : Faithful brings := by
  constructor
  · intro w n v held
    rcases brings_cases w n with ⟨v', held', brings⟩ | ⟨unheld, -⟩
    · obtain rfl : v = v' := Option.some.inj (held.symm.trans held')
      exact brings
    · rw [held] at unheld
      contradiction
  · intro w n unheld
    rcases brings_cases w n with ⟨v, held, -⟩ | ⟨-, failed⟩
    · rw [unheld] at held
      contradiction
    · exact ⟨_, _, failed⟩

/-- An entry that is read to its end holds the UTF-8 of a text, and its translation has been
read. -/
theorem Faithful.translate?_of_reads (faithful : Faithful serve) {cs : List Char}
    (reads : Reads (serve w (.node n)) cs (.ok .ended)) :
    ∃ text : String, w.held? n = some (text.toList.flatMap Utf8.encode) ∧
      translate? text = some (String.ofList cs) := by
  cases held : w.held? n with
  | some v =>
    obtain ⟨text, rfl, made⟩ := ByteSource.translate?_of_reads (faithful.brings w n v held) reads
    exact ⟨text, rfl, made⟩
  | none =>
    obtain ⟨f, later, failed⟩ := faithful.fails w n held
    rw [failed] at reads
    obtain ⟨u, yields, ended⟩ := reads.yields
    have fails : Source.Leads {} (Source.Fails {} f) []
        (ByteSource.ofDevice (.failed f :: later)) := rfl
    exact absurd ended (Translator.not_ended_of_fails fails yields)

theorem ended_of_codeOf {device : List ReadStep} {cs : List Char} {last : Except Failure Item}
    (reads : Reads device cs last) (well : codeOf last = 0) : last = .ok .ended := by
  rcases reads.last_cases with ended | ⟨f, rfl⟩
  · exact ended
  · contradiction

theorem translate?_empty : translate? "" = some "" := translate?_of_spelling ⟨[], false⟩ rfl

variable {Args Setting : Type} {lib : Library Args Setting} {args : Args} {setting : Setting}

/-- A run that ends well has read the UTF-8 of a text without malformed escapes, and an output that
keeps what it is given holds the translation of that text. The input counts as it is when the output
has been made ready: as it was before the run, unless it is the output itself, which is empty then.
Nothing else has changed. The input is an entry of the disk: what reads of other channels bring is
left open. -/
theorem run_ends_well (faithful : Faithful serve) (parsed : lib.parse args = .ok o)
    (writes : o.check = false) (reads : ∀ c, w.inputOf o = .ok c → ∃ n, c = .node n)
    (accepts : ∀ out w₁, w.outputOf o = .ok (out, w₁) → out ≠ .full)
    (well : (((hostWith serve).run lib args setting).run w).1 = 0) :
    ∃ n out w₁, w.inputOf o = .ok (.node n) ∧ w.outputOf o = .ok (out, w₁) ∧
      ∃ text made : String, translate? text = some made ∧
        (¬(out = .node n ∧ (w₁.kept? out).isSome) →
          w.held? n = some (text.toList.flatMap Utf8.encode)) ∧
        (out = .node n ∧ (w₁.kept? out).isSome → text = "" ∧ made = "") ∧
        Spared out w (((hostWith serve).run lib args setting).run w).2 ∧
        ((w₁.kept? out).isSome → Delivered out (made.toList.flatMap Utf8.encode) w
          (((hostWith serve).run lib args setting).run w).2) := by
  by_cases sets : lib.readFilter setting = .brokenOff
  · rw [run_of_brokenOff serve lib parsed sets] at well
    contradiction
  obtain ⟨enables, filter⟩ := exists_filter lib sets o.verbosity
  rw [run_of_parsed serve lib parsed filter] at well ⊢
  cases opened : w.inputOf o with
  | error f =>
    rw [runWith_unopened serve enables lib opened] at well
    contradiction
  | ok c =>
    obtain ⟨n, rfl⟩ := reads c opened
    cases ready : w.outputOf o with
    | error f =>
      have failed := runWith_uncreated serve enables lib writes opened ready
      rw [well] at failed
      contradiction
    | ok made =>
      obtain ⟨out, w₁⟩ := made
      obtain ⟨cs, last, reads⟩ := ByteSource.exists_reads (serve w₁ (.node n))
      obtain ⟨code, spared, kept⟩ := runWith_delivers serve enables lib writes opened ready
        (accepts out w₁ ready) reads
      obtain rfl : last = .ok .ended := ended_of_codeOf reads (code.symm.trans well)
      -- What has been read is what the input holds once the output is ready, not before.
      obtain ⟨text, held, whole⟩ := faithful.translate?_of_reads reads
      rw [held_ready (outputOf_ready ready)] at held
      rw [← String.toList_ofList (l := cs)] at kept
      refine ⟨n, out, w₁, rfl, rfl, text, _, whole, ?_, ?_, spared, kept⟩
      · intro apart
        rw [if_neg apart] at held
        exact held
      · intro same
        rw [if_pos same] at held
        obtain rfl := Utf8.text_of_no_bytes (Option.some.inj held).symm
        exact ⟨rfl, Option.some.inj (whole.symm.trans translate?_empty)⟩

/-- If the input holds the UTF-8 of a text that can be translated, once the output is ready, the run
ends well. -/
theorem run_of_translate? (faithful : Faithful serve) (parsed : lib.parse args = .ok o)
    (sets : lib.readFilter setting ≠ .brokenOff) (writes : o.check = false)
    (opened : w.inputOf o = .ok (.node n)) (ready : w.outputOf o = .ok (out, w₁))
    (accepts : out ≠ .full) {text made : String}
    (held : w₁.held? n = some (text.toList.flatMap Utf8.encode))
    (whole : translate? text = some made) :
    let left := ((hostWith serve).run lib args setting).run w
    left.1 = 0 ∧
      ((w₁.kept? out).isSome → Delivered out (made.toList.flatMap Utf8.encode) w left.2) := by
  intro left
  obtain ⟨enables, filter⟩ := exists_filter lib sets o.verbosity
  have run : left = ((hostWith serve).runWith lib o enables).run w :=
    congrArg (fun x => x.run w) (run_of_parsed serve lib parsed filter)
  have reads := ByteSource.reads_of_translate? (faithful.brings w₁ n _ held) whole
  obtain ⟨code, -, kept⟩ := runWith_delivers serve enables lib writes opened ready
    accepts reads
  rw [run]
  exact ⟨code, kept⟩

/-- The letter A, written as an escape. -/
def escapedA : Spelling where
  pieces := [.unit
    ⟨0, [⟨'0', by decide⟩, ⟨'0', by decide⟩, ⟨'4', by decide⟩, ⟨'1', by decide⟩], rfl⟩
    (by unfold IsHigh; decide) (by unfold IsLow; decide)]
  trailing := false

theorem translate?_escapedA : translate? "\\u0041" = some "A" :=
  (translate?_of_spelling escapedA rfl).trans rfl

/-- The escape comes from the standard input. -/
def piped : World where
  disk := { entries := [(1, .inflow ("\\u0041".toList.flatMap Utf8.encode))] }

theorem piped_ends_well :
    sparse.parse ["-o", "out"] = .ok { output := some (pathOf "out") } ∧
    (piped.run sparse ["-o", "out"] none).1 = 0 ∧
    ∃ text made : String, translate? text = some made ∧
      "\\u0041".toList.flatMap Utf8.encode = text.toList.flatMap Utf8.encode ∧
      (piped.run sparse ["-o", "out"] none).2.disk.get? 2 =
        some (.file (made.toList.flatMap Utf8.encode)) := by
  have parsed : sparse.parse ["-o", "out"] = .ok { output := some (pathOf "out") } := rfl
  have reads : ∀ c, piped.inputOf { output := some (pathOf "out") } = .ok c →
      ∃ n, c = .node n := by
    rintro c ⟨⟩
    exact ⟨1, rfl⟩
  have accepts : ∀ out w₁, piped.outputOf { output := some (pathOf "out") } = .ok (out, w₁) →
      out ≠ .full := by
    rintro out w₁ ⟨⟩
    exact nofun
  have sets : sparse.readFilter none ≠ .brokenOff := nofun
  have well : (piped.run sparse ["-o", "out"] none).1 = 0 :=
    (run_of_translate? (w := piped) faithful_brings parsed sets rfl rfl rfl nofun rfl
      translate?_escapedA).1
  obtain ⟨n, out, w₁, ⟨⟩, ⟨⟩, text, made, whole, held, -, -, delivered⟩ :=
    run_ends_well faithful_brings parsed rfl reads accepts well
  exact ⟨parsed, well, text, made, whole, Option.some.inj (held nofun),
    (delivered rfl).file _ rfl⟩

/-- A file with two names, which is also the standard input. -/
def overwritten : World where
  disk := {
    names := [((0, pathOf "f"), 2), ((0, pathOf "g"), 2)]
    entries := [(2, .file ("\\u0041".toList.flatMap Utf8.encode))] }
  standardInput := 2

/-- The output is the input, under its name, under another name and as the standard input. -/
theorem overwritten_lost :
    overwritten.held? 2 = some ("\\u0041".toList.flatMap Utf8.encode) ∧
    translate? "\\u0041" = some "A" ∧
    ∀ args ∈ [["f", "-o", "f"], ["f", "-o", "g"], ["-o", "g"]],
      (overwritten.run sparse args none).1 = 0 ∧
        (overwritten.run sparse args none).2.disk.get? 2 = some (.file []) := by
  have lost : ∀ args o, sparse.parse args = .ok o → o.check = false →
      overwritten.inputOf o = .ok (.node 2) →
      overwritten.outputOf o = .ok (.node 2, { overwritten with
        disk := overwritten.disk.put 2 (.file []) }) →
      (overwritten.run sparse args none).1 = 0 ∧
        (overwritten.run sparse args none).2.disk.get? 2 = some (.file []) := by
    intro args o parsed writes opened ready
    have sets : sparse.readFilter none ≠ .brokenOff := nofun
    obtain ⟨code, delivered⟩ := run_of_translate? faithful_brings parsed sets writes opened ready
      nofun rfl translate?_empty
    exact ⟨code, (delivered rfl).file 2 rfl⟩
  refine ⟨rfl, translate?_escapedA, ?_⟩
  simp only [List.forall_mem_cons]
  exact ⟨lost _ _ rfl rfl rfl rfl, lost _ _ rfl rfl rfl rfl, lost _ _ rfl rfl rfl rfl, nofun⟩

end EscapedText.World
