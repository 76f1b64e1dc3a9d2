import EscapedText.Failure

/-!
A buffer in front of an output. Bytes wait in it until there is no room for the next, or until it is
flushed; what cannot be written stays.
-/
namespace EscapedText.Buffer

/-- The most bytes that wait. -/
def room : Nat := 8192

variable {m : Type → Type} [Monad m] (write : List UInt8 → m (Except Fault Unit))

/-- Writes what waits, if anything does. -/
def flush : StateT (Array UInt8) m (Except Fault Unit) := do
  let waiting ← get
  if waiting.isEmpty then return .ok ()
  else
    match ← write waiting.toList with
    | .ok () =>
      set (#[] : Array UInt8)
      return .ok ()
    | .error f => return .error f

def put (bytes : List UInt8) : StateT (Array UInt8) m (Except Fault Unit) := do
  let waiting ← get
  if waiting.size + bytes.length ≤ room then
    set (waiting ++ bytes)
    return .ok ()
  else
    match ← flush write with
    | .ok () =>
      set bytes.toArray
      return .ok ()
    | .error f => return .error f

end EscapedText.Buffer
