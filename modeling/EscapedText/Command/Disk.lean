import EscapedText.Command.Options
import EscapedText.Source.Bytes

/-!
Files, directories and devices. Each has a number, and names in directories lead to numbers: names
that lead to the same one are the same file, as links are. A path is walked from directory to
directory, and one through something else is refused on the way. Who may not do what is left open.
-/
namespace EscapedText

/-- Two of the streams that everybody is given. -/
inductive Stream where
  | output
  | reports
deriving DecidableEq

/-- `void` swallows what it is given and brings nothing; `full` has no room for anything, and nobody
reads it. An `inflow` brings what is sent to it, as a pipe or a terminal does, and swallows what it
is given. -/
inductive Entry where
  | file (bytes : List UInt8)
  | directory
  | void
  | full
  | inflow (bytes : List UInt8)
  | stream (s : Stream)
deriving DecidableEq

inductive Access where
  | search
  | read
  | write
deriving DecidableEq

/-- A name belongs to the directory with the number beside it. A number without an entry is where a
name leads that leads nowhere yet. The root has number zero and is always there. A path that does
not begin at it begins at `here`. -/
structure Disk where
  names : List ((Nat × Path) × Nat) := []
  entries : List (Nat × Entry) := []
  here : Nat := 0
  bars : Access → Nat → Option Fault := fun _ _ => none

namespace Disk

def notFound : Fault := .device .notFound "No such file or directory (os error 2)"

def notDirectory : Fault := .device .notDirectory "Not a directory (os error 20)"

def isDirectory : Fault := .device .isDirectory "Is a directory (os error 21)"

def noSpace : Fault := .device .storageFull "No space left on device (os error 28)"

def nameTooLong : Fault := .device .invalidName "File name too long (os error 36)"

/-- The most bytes in a name. -/
def nameLimit : Nat := 255

/-- The most bytes in a path. -/
def pathLimit : Nat := 4095

def slash : UInt8 := 0x2F

/-- The name that every directory has for itself. -/
def self : Path := [0x2E]

/-- The name that every directory has for the one above. -/
def above : Path := [0x2E, 0x2E]

def get? (d : Disk) (n : Nat) : Option Entry :=
  if n = 0 then some .directory else d.entries.lookup n

/-- Puts an entry in place of what was there. -/
def put (d : Disk) (n : Nat) (e : Entry) : Disk :=
  { d with entries := (n, e) :: d.entries.filter fun f => f.1 ≠ n }

/-- A number that is not in use. -/
def fresh (d : Disk) : Nat := (d.names.map (·.2) ++ d.entries.map (·.1)).foldr max 0 + 1

def add (d : Disk) (directory : Nat) (name : Path) (e : Entry) : Disk :=
  { d.put d.fresh e with names := ((directory, name), d.fresh) :: d.names }

def allow (d : Disk) (a : Access) (n : Nat) : Except Fault Unit :=
  match d.bars a n with
  | none => .ok ()
  | some f => .error f

/-- A directory whose names are looked up. -/
def enter (d : Disk) (n : Nat) : Except Fault Unit :=
  match d.get? n with
  | none => .error notFound
  | some .directory => d.allow .search n
  | some _ => .error notDirectory

/-- What a name in a directory leads to, if there is such a name. -/
def child? (d : Disk) (n : Nat) (name : Path) : Except Fault (Option Nat) := do
  d.enter n
  if name = self then return some n
  else if name = above then return some ((d.names.lookup (n, above)).getD n)
  else if nameLimit < name.length then .error nameTooLong
  else return d.names.lookup (n, name)

def walk (d : Disk) (n : Nat) : List Path → Except Fault Nat
  | [] => .ok n
  | name :: rest => do
    match ← d.child? n name with
    | none => .error notFound
    | some n => walk d n rest

/-- Where a path begins, and the names on it. Slashes in a row count once. -/
def route (d : Disk) (path : Path) : Except Fault (Nat × List Path) :=
  if path = [] then .error notFound
  else if pathLimit < path.length then .error nameTooLong
  else .ok (if path.head? = some slash then 0 else d.here,
    (path.splitOn slash).filter (· ≠ []))

/-- Behind a slash only a directory can be meant. -/
def endsInSlash (path : Path) : Bool := path.getLast? = some slash

/-- Finds what can be opened for reading; a directory can, though reading it fails. -/
def find (d : Disk) (path : Path) : Except Fault Nat := do
  let (start, names) ← d.route path
  let n ← d.walk start names
  match d.get? n with
  | none => .error notFound
  | some .directory => d.allow .read n
  | some _ => if endsInSlash path then .error notDirectory else d.allow .read n
  return n

/-- Makes a file empty, or takes anything else that can be written as it is. -/
def clear (d : Disk) (n : Nat) : Except Fault Disk :=
  match d.get? n with
  | none => .ok (d.put n (.file []))
  | some .directory => .error isDirectory
  | some (.file _) => do
    d.allow .write n
    return d.put n (.file [])
  | some _ => do
    d.allow .write n
    return d

/-- Makes an empty file under a name, or clears what the name leads to. -/
def createIn (d : Disk) (directory : Nat) (name : Path) : Except Fault (Nat × Disk) := do
  match ← d.child? directory name with
  | none =>
    d.allow .write directory
    return (d.fresh, d.add directory name (.file []))
  | some n => return (n, ← d.clear n)

def create (d : Disk) (path : Path) : Except Fault (Nat × Disk) := do
  let (start, names) ← d.route path
  match names.getLast? with
  | none => .error isDirectory
  | some name =>
    let directory ← d.walk start names.dropLast
    d.enter directory
    if endsInSlash path ∨ name = self ∨ name = above then .error isDirectory
    else d.createIn directory name

/-- What reads of an entry bring: all it holds at once, or a failure. -/
def device (d : Disk) (n : Nat) : List ReadStep :=
  match d.get? n with
  | some (.file bytes) | some (.inflow bytes) => if bytes = [] then [] else [.bytes bytes]
  | some .directory => [.failed isDirectory]
  | _ => []

def append (d : Disk) (n : Nat) (bytes : List UInt8) : Disk :=
  match d.get? n with
  | some (.file old) => d.put n (.file (old ++ bytes))
  | _ => d

theorem get?_put (d : Disk) (n : Nat) (e : Entry) (h : n ≠ 0) :
    (d.put n e).get? n = some e := by
  simp [get?, put, h]

theorem get?_put_of_ne (d : Disk) (n k : Nat) (e : Entry) (h : k ≠ n) :
    (d.put n e).get? k = d.get? k := by
  have others : ∀ es : List (Nat × Entry),
      (es.filter fun f => f.1 ≠ n).lookup k = es.lookup k := by
    intro es
    induction es with
    | nil => rfl
    | cons f es ih =>
      obtain ⟨i, v⟩ := f
      by_cases same : i = n
      · subst same
        have apart : (k == i) = false := by simpa using h
        simpa [List.lookup_cons, apart] using ih
      · have kept : ((i, v) :: es).filter (fun f => f.1 ≠ n) =
            (i, v) :: es.filter fun f => f.1 ≠ n := by simp [same]
        rw [kept, List.lookup_cons, List.lookup_cons, ih]
  have apart : (k == n) = false := by simpa using h
  simp only [get?, put]
  split
  · rfl
  · rw [List.lookup_cons, apart]
    exact others d.entries

theorem lt_fresh {d : Disk} {n : Nat} (h : n ∈ d.names.map (·.2) ++ d.entries.map (·.1)) :
    n < d.fresh := by
  have bounded : ∀ ns : List Nat, n ∈ ns → n ≤ ns.foldr max 0 := by
    intro ns member
    induction ns with
    | nil => contradiction
    | cons k ns ih =>
      rcases List.mem_cons.mp member with rfl | later
      · exact Nat.le_max_left _ _
      · exact Nat.le_trans (ih later) (Nat.le_max_right _ _)
  exact Nat.lt_succ_of_le (bounded _ h)

theorem get?_fresh (d : Disk) : d.get? d.fresh = none := by
  have positive : d.fresh ≠ 0 := Nat.succ_ne_zero _
  rw [get?, if_neg positive]
  apply List.lookup_eq_none_iff.mpr
  intro e member
  have used : e.1 < d.fresh :=
    lt_fresh (List.mem_append_right _ (List.mem_map_of_mem member))
  simpa using Nat.ne_of_gt used

end Disk
end EscapedText
