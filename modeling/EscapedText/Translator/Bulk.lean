import EscapedText.Run
import EscapedText.Translator.Finite

/-!
Reading many characters at once. Every way of reading takes the answers of `next` one after
another and stops at the first it has no use for; none skips an answer or takes one twice.
-/
namespace EscapedText.Translator

variable {σ : Type} [Source σ]

def never (_ : Failure) : Bool := false

/-- At most `limit` reads, past malformed escapes if `past` says so. -/
def run (b : Bookmarks) (t : Translator σ) (past : Failure → Bool) (follow : Option Bookmark)
    (limit : Nat) : Run (Translator σ) Failure :=
  Run.extend next past follow limit (Run.start b t)

/-- Reads until the first answer that is no character. A translator of size `n` gives at most `n`
characters, so `n + 1` reads reach it. -/
def runAll (b : Bookmarks) (t : Translator σ) (follow : Option Bookmark) :
    Run (Translator σ) Failure :=
  t.run b never follow (t.size + 1)

/-- Overwrites the front of `buffer` with characters. Answers how many, or nothing if the input
had ended before the first; the rest of the buffer stays. -/
def readInto (b : Bookmarks) (t : Translator σ) (buffer : List Char) :
    Turn (Translator σ) (Except Failure (Option Nat) × List Char) :=
  let r := t.run b never none buffer.length
  let cs := r.chars
  let answer := match r.stop? with
    | some (.error f) => .error f
    | some (.ok ()) => .ok (if cs.isEmpty then none else some cs.size)
    | none => .ok (some cs.size)
  ⟨(answer, cs.toList ++ buffer.drop cs.size), r.state, r.events⟩

/-- Appends everything up to the end of the input or the first failure to `out`. -/
def readAll (b : Bookmarks) (t : Translator σ) (out : String) :
    Turn (Translator σ) (Except Failure Nat × String) :=
  let r := t.runAll b none
  let answer := match r.stop? with
    | some (.error f) => .error f
    | _ => .ok r.chars.size
  ⟨(answer, r.appendTo out), r.state, r.events⟩

def step? : Except Failure Item → Option (Except Failure Char)
  | .ok (.char c) => some (.ok c)
  | .ok .ended => none
  | .error f => some (.error f)

/-- The first `n` steps of one iteration. It goes on after a malformed escape; after the end of
the input or any other failure it has nothing more. -/
def iterate (b : Bookmarks) (t : Translator σ) (n : Nat) :
    Turn (Translator σ) (List (Option (Except Failure Char))) :=
  let r := t.run b Failure.isMalformed none n
  ⟨r.answers.toList.map step? ++ List.replicate (n - r.answers.size) none, r.state, r.events⟩

/-- Lends `s` to a fresh translator for a run past malformed escapes, and takes it back, closed by
the translator if `closing` says so. -/
def lend (b : Bookmarks) (s : σ) (limit : Nat) (closing : Bool) :
    Turn σ (Array (Except Failure Item)) :=
  let r := (ofSource s).run b Failure.isMalformed none limit
  if closing then
    let turn := r.state.close
    ⟨r.answers, turn.state.source, r.events ++ turn.events⟩
  else ⟨r.answers, r.state.source, r.events⟩

end EscapedText.Translator
