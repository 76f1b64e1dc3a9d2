import EscapedText.Source

/-!
Runs of reads. A run collects the answers of one reader after another until its number of reads
is used up, the input ends, or a fault stops it. A consumer that follows the text moves its
bookmark past each character before the next read.
-/
namespace EscapedText

/-- What a run has collected, and where it stands. -/
structure Run (σ ε : Type) where
  bookmarks : Bookmarks
  state : σ
  answers : Array (Except ε Item) := #[]
  events : Array Event := #[]

namespace Run

variable {σ ε : Type}

def start (b : Bookmarks) (s : σ) : Run σ ε := { bookmarks := b, state := s }

/-- The bookmarks after an answer that the holder of `follow` has taken. -/
def track (follow : Option Bookmark) (b : Bookmarks) : Except ε Item → Bookmarks
  | .ok (.char c) =>
    match follow with
    | some m => b.advance m c
    | none => b
  | _ => b

def push (follow : Option Bookmark) (r : Run σ ε) (turn : Turn σ (Except ε Item)) : Run σ ε :=
  { bookmarks := track follow r.bookmarks turn.answer
    state := turn.state
    answers := r.answers.push turn.answer
    events := r.events ++ turn.events }

/-- Whether to read on after an answer, where `past` tells which errors to read past. -/
def readsOn (past : ε → Bool) : Except ε Item → Bool
  | .ok (.char _) => true
  | .ok .ended => false
  | .error e => past e

def extend (next : Bookmarks → σ → Turn σ (Except ε Item)) (past : ε → Bool)
    (follow : Option Bookmark) : Nat → Run σ ε → Run σ ε
  | 0, r => r
  | n + 1, r =>
    let turn := next r.bookmarks r.state
    let r := r.push follow turn
    if readsOn past turn.answer then extend next past follow n r else r

def char? : Except ε Item → Option Char
  | .ok (.char c) => some c
  | _ => none

def chars (r : Run σ ε) : Array Char := r.answers.filterMap char?

/-- The last answer, if it is no character. In a run past no error it is what stopped the run; a run
that only used up its reads has none. -/
def stop? (r : Run σ ε) : Option (Except ε Unit) :=
  match r.answers.back? with
  | some (.error e) => some (.error e)
  | some (.ok .ended) => some (.ok ())
  | _ => none

/-- Appends the characters of the run to `out`. -/
def appendTo (out : String) (r : Run σ ε) : String :=
  r.answers.foldl (fun out a => match char? a with
    | some c => out.push c
    | none => out) out

end Run
end EscapedText
