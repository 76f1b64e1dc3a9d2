import EscapedText.Command.Printing
import EscapedText.Command.Standard

/-! The command line: files and standard streams as they are, and nothing decided here. -/
namespace EscapedText.CommandLine

inductive Channel where
  | standard
  | file (h : IO.FS.Handle)

/-- The system's own words for an error, with its number. -/
def fault (e : IO.Error) : Fault :=
  let numbered (kind : FaultKind) (code : UInt32) (details : String) : Fault :=
    .device kind s!"{details} (os error {code})"
  match e with
  | .noFileOrDirectory _ code details => numbered .notFound code details
  | .permissionDenied _ code details => numbered .permissionDenied code details
  | .interrupted _ code details => numbered .interrupted code details
  | .timeExpired code details => numbered .timedOut code details
  | .resourceVanished code details => numbered .brokenPipe code details
  | .inappropriateType _ code details => numbered .isDirectory code details
  | .alreadyExists _ code details => numbered (.named "AlreadyExists") code details
  | .otherError code details => numbered .other code details
  | .resourceBusy code details => numbered (.named "ResourceBusy") code details
  | .unsupportedOperation code details => numbered (.named "Unsupported") code details
  | .hardwareFault code details => numbered .other code details
  | .unsatisfiedConstraints code details => numbered .other code details
  | .illegalOperation code details => numbered .other code details
  | .protocolError code details => numbered .other code details
  | .invalidArgument _ code details => numbered (.named "InvalidInput") code details
  | .resourceExhausted _ code details => numbered (.named "OutOfMemory") code details
  | .noSuchThing _ code details => numbered .other code details
  | .unexpectedEof => .device .unexpectedEnd "unexpected end of file"
  | .userError message => .device .other message

def opened (path : Path) (mode : IO.FS.Mode) : IO (Except Fault Channel) := do
  match String.fromUTF8? ⟨path.toArray⟩ with
  | none => return .error (.device (.named "InvalidInput") "path is not UTF-8")
  | some name =>
    match ← (IO.FS.Handle.mk name mode).toBaseIO with
    | .ok h => return .ok (.file h)
    | .error e => return .error (fault e)

partial def steps (chunk : IO ByteArray) (before : Array ReadStep) : IO (List ReadStep) := do
  match ← chunk.toBaseIO with
  | .error e => return (before.push (.failed (fault e))).toList
  | .ok bytes =>
    if bytes.isEmpty then return before.toList
    else steps chunk (before.push (.bytes bytes.toList))

def read : Channel → IO (List ReadStep)
  | .standard => do steps ((← IO.getStdin).read 8192) #[]
  | .file h => steps (h.read 8192) #[]

def write (channel : Channel) (bytes : List UInt8) : IO (Except Fault Unit) := do
  let data := ByteArray.mk bytes.toArray
  let all : IO Unit := match channel with
    | .standard => do
      let out ← IO.getStdout
      out.write data
      out.flush
    | .file h => do
      h.write data
      h.flush
  match ← all.toBaseIO with
  | .ok () => return .ok ()
  | .error e => return .error (fault e)

def report (message : Message) : IO Unit := do
  let err ← IO.getStderr
  err.write ⟨message.bytes.toArray⟩

def host : Host IO Channel Channel where
  standardInput := return .standard
  standardOutput := .standard
  openInput path := opened path .read
  createOutput path := opened path .write
  read := read
  write := write
  report := report

end EscapedText.CommandLine

def main (args : List String) : IO UInt32 := do
  let setting ← IO.getEnv "RUST_LOG"
  let code ← EscapedText.CommandLine.host.run .standard args setting
  return code.toUInt32
