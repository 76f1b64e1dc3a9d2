import EscapedText.Command.Buffer
import EscapedText.Command.Library
import EscapedText.Copy
import EscapedText.Source.Bytes

/-!
The command itself. It opens its input, then creates its output unless it only checks, then copies
what the input stands for, with a bookmark behind that says where malformed escapes are.
-/
namespace EscapedText

/-- What the command tells its user beside its output. -/
inductive Message where
  | record (r : LogRecord)
  /-- The outermost cause stands first. -/
  | failure (causes : List String)
  | brokenOff
  | text (bytes : List UInt8)
deriving DecidableEq

/-- What the command asks of its surroundings, in any monad that can give it. -/
structure Host (m : Type → Type) (Input Output : Type) where
  standardInput : m Input
  standardOutput : Output
  openInput : Path → m (Except Fault Input)
  createOutput : Path → m (Except Fault Output)
  /-- All that reads bring, as things stand. -/
  read : Input → m (List ReadStep)
  write : Output → List UInt8 → m (Except Fault Unit)
  report : Message → m Unit

/-- The place of a fresh session's bookmark, and a translator for a device that is located by it. -/
def Session.followed (device : List ReadStep) : Bookmark × Session ByteSource :=
  let (mark, bookmarks) := ({} : Bookmarks).add
  (mark, ⟨bookmarks, (Translator.ofSource (ByteSource.ofDevice device)).locatedBy (.bookmark mark)⟩)

def Halt.causes : Halt → List String
  | .failed f => [f.message]
  | .lost f => [f.message]
  | .unflushed f => ["failed to flush output", f.message]
  | .overrun => []

namespace Host

variable {m : Type → Type} {Args Setting Input Output : Type} [Monad m]
  (host : Host m Input Output) (lib : Library Args Setting)

def fail (causes : List String) : m Nat := do
  host.report (.failure causes)
  return 1

/-- A run that breaks off reports it and has an exit code of its own. -/
def breakOff : m Nat := do
  host.report .brokenOff
  return 101

/-- Reports a record if the filter lets it through. -/
def log (enables : LogRecord → Bool) (r : LogRecord) : m Unit :=
  if enables r then host.report (.record r) else pure ()

def input (o : Options) : m (Except Fault Input) :=
  match o.file? with
  | none => do return .ok (← host.standardInput)
  | some path => host.openInput path

/-- The output, or the path that it could not be created at. -/
def output (o : Options) : m (Except (Path × Fault) Output) :=
  match o.output with
  | none => return .ok host.standardOutput
  | some path => do return (← host.createOutput path).mapError (path, ·)

def check (enables : LogRecord → Bool) (device : List ReadStep) :
    m (Except Halt UInt64 × Session ByteSource) :=
  let (mark, s) := Session.followed device
  s.copy .wrapping mark (fun e => host.log enables e.record) none

/-- Flushes the buffer behind a copy, which counts if all has been copied. What still waits when the
buffer is let go is given one more try. -/
def settle (out : Output) (result : Except Halt UInt64) :
    StateT (Array UInt8) m (Except Halt UInt64) := do
  let result ← match result with
    | .error h => pure (.error h)
    | .ok count => do
      match ← Buffer.flush (host.write out) with
      | .ok () => pure (.ok count)
      | .error f => pure (.error (.unflushed f))
  let _ ← Buffer.flush (host.write out)
  return result

/-- Copies into a buffer in front of an output. -/
def translate (enables : LogRecord → Bool) (device : List ReadStep) (out : Output) :
    m (Except Halt UInt64 × Session ByteSource) :=
  let (mark, s) := Session.followed device
  let log := fun (e : Event) => (host.log enables e.record : StateT (Array UInt8) m Unit)
  let copied : StateT (Array UInt8) m (Except Halt UInt64 × Session ByteSource) := do
    let (result, s) ← s.copy .wrapping mark log (some (Buffer.put (host.write out)))
    return (← host.settle out result, s)
  copied.run' #[]

/-- Ends a run that has copied, and closes its translator if all went well. -/
def conclude (enables : LogRecord → Bool) (name : String) :
    Except Halt UInt64 × Session ByteSource → m Nat
  | (.error .overrun, _) => host.breakOff
  | (.error h, _) => host.fail (("failed to translate " ++ name) :: h.causes)
  | (.ok count, s) => do
    let closing := s.translator.close
    forM closing.events.toList fun e => host.log enables e.record
    match closing.answer with
    | .error f => host.fail [f.message]
    | .ok () =>
      host.log enables (.finished name count.toNat)
      return 0

/-- Runs with the options and the filter read, and answers the exit code. -/
def runWith (o : Options) (enables : LogRecord → Bool) : m Nat := do
  let name := lib.nameOf o
  match ← host.input o with
  | .error f => host.fail ["failed to open " ++ name, f.message]
  | .ok input =>
    if o.check then
      host.conclude enables name (← host.check enables (← host.read input))
    else
      match ← host.output o with
      | .error (path, f) => host.fail ["failed to create " ++ lib.display path, f.message]
      | .ok out =>
        host.conclude enables name (← host.translate enables (← host.read input) out)

def finish (e : Ending) : m Nat := do
  let _ ← host.write host.standardOutput e.output
  host.report (.text e.notice)
  return e.code

/-- Runs with arguments and a filter set by the surroundings, and answers the exit code. -/
def run (args : Args) (setting : Setting) : m Nat :=
  match lib.parse args with
  | .error ending => host.finish ending
  | .ok o =>
    match lib.filter? setting o.verbosity with
    | none => host.breakOff
    | some enables => host.runWith lib o enables

end Host
end EscapedText
