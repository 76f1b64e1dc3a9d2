import EscapedText.Command.Disk
import EscapedText.Command.Host

/-!
A world to run the command in: a disk and the three standard streams, with nobody else at work. The
standard input is whatever its number leads to, a file of the disk included. The standard output and
the standard error are streams apart from each other and from all files.
-/
namespace EscapedText

structure World where
  disk : Disk := {}
  standardInput : Nat := 1
  standardOutput : List UInt8 := []
  standardError : List Message := []

namespace World

/-- What is opened: a stream, the device that has no room, or an entry of the disk. -/
inductive Channel where
  | stream (s : Stream)
  | full
  | node (n : Nat)
deriving DecidableEq

def channelOf (d : Disk) (n : Nat) : Channel :=
  match d.get? n with
  | some (.stream s) => .stream s
  | some .full => .full
  | _ => .node n

def openInput (path : Path) : StateM World (Except Fault Channel) := do
  let d := (← get).disk
  return (d.find path).map (channelOf d)

def createOutput (path : Path) : StateM World (Except Fault Channel) := do
  let w ← get
  match w.disk.create path with
  | .ok (n, disk) =>
    set { w with disk }
    return .ok (channelOf disk n)
  | .error f => return .error f

/-- What reads of a channel bring. -/
def brings (w : World) : Channel → List ReadStep
  | .node n => w.disk.device n
  | _ => []

/-- The world after a channel has taken bytes. -/
def push (c : Channel) (bytes : List UInt8) (w : World) : World :=
  match c with
  | .stream .output => { w with standardOutput := w.standardOutput ++ bytes }
  | .stream .reports => { w with standardError := w.standardError ++ [.text bytes] }
  | .full => w
  | .node n => { w with disk := w.disk.append n bytes }

def write (c : Channel) (bytes : List UInt8) : StateM World (Except Fault Unit) := do
  if c = .full then return .error Disk.noSpace
  else
    modify (push c bytes)
    return .ok ()

def tell (message : Message) (w : World) : World :=
  { w with standardError := w.standardError ++ [message] }

/-- A host in which reads bring what `serve` says, so that they may fail anywhere. -/
def hostWith (serve : World → Channel → List ReadStep) : Host (StateM World) Channel Channel where
  standardInput := do
    let w ← get
    return channelOf w.disk w.standardInput
  standardOutput := .stream .output
  openInput := openInput
  createOutput := createOutput
  read c := do return serve (← get) c
  write := write
  report message := modify (tell message)

def host : Host (StateM World) Channel Channel := hostWith brings

/-- The exit code of a run, and the world after it. -/
def run {Args Setting : Type} (w : World) (lib : Library Args Setting) (args : Args)
    (setting : Setting) : Nat × World :=
  (host.run lib args setting).run w

end World
end EscapedText
