import EscapedText.Command.Options

/-!
Reading the arguments of the command. They are read from left to right; the first that asks for the
version, asks for help or fits nothing decides. After `--` everything is an input.
-/
namespace EscapedText.Arguments

inductive Parsed where
  | run (o : Options)
  | version
  | help
  | misuse
deriving DecidableEq

/-- What an argument leaves to do: go on, go on with the output's name, or stop. -/
inductive Effect where
  | next (o : Options)
  | outputNext (o : Options)
  | stop (p : Parsed)
deriving DecidableEq

/-- At most one input, and no empty name. -/
def withInput (o : Options) (name : String) : Effect :=
  if o.input.isSome ∨ name = "" then .stop .misuse
  else .next { o with input := some name.toUTF8.toList }

/-- At most one output, and no empty name. -/
def withOutput (o : Options) (name : String) : Effect :=
  if o.output.isSome ∨ name = "" then .stop .misuse
  else .next { o with output := some name.toUTF8.toList }

def withCheck (o : Options) : Effect :=
  if o.check then .stop .misuse else .next { o with check := true }

def louder (o : Options) : Options := { o with verbosity := o.verbosity + 1 }

def long (o : Options) (name : String) (value : Option String) : Effect :=
  match name, value with
  | "output", none => .outputNext o
  | "output", some v => withOutput o v
  | "check", none => withCheck o
  | "verbose", none => .next (louder o)
  | "version", none => .stop .version
  | "help", none => .stop .help
  | _, _ => .stop .misuse

/-- Letters behind one dash. What follows an `o` is its value. -/
def short (o : Options) : List Char → Effect
  | [] => .next o
  | ['o'] => .outputNext o
  | 'o' :: '=' :: cs => withOutput o (String.ofList cs)
  | 'o' :: cs => withOutput o (String.ofList cs)
  | 'v' :: cs => short (louder o) cs
  | 'V' :: _ => .stop .version
  | 'h' :: _ => .stop .help
  | _ => .stop .misuse

def argument (o : Options) : List Char → Effect
  | '-' :: '-' :: cs =>
    let value := match cs.dropWhile (· ≠ '=') with
      | [] => none
      | _ :: v => some (String.ofList v)
    long o (String.ofList (cs.takeWhile (· ≠ '='))) value
  | '-' :: c :: cs => short o (c :: cs)
  | cs => withInput o (String.ofList cs)

/-- A lone dash is a name; anything longer behind a dash is not. -/
def isName (arg : String) : Bool := arg = "-" || !arg.startsWith "-"

def inputs (o : Options) : List String → Parsed
  | [] => .run o
  | arg :: rest =>
    match withInput o arg with
    | .next o => inputs o rest
    | _ => .misuse

def parseFrom (o : Options) : List String → Parsed
  | [] => .run o
  | "--" :: rest => inputs o rest
  | arg :: rest =>
    match argument o arg.toList with
    | .next o => parseFrom o rest
    | .stop p => p
    | .outputNext o =>
      match rest with
      | [] => .misuse
      | name :: rest =>
        if isName name then
          match withOutput o name with
          | .next o => parseFrom o rest
          | _ => .misuse
        else .misuse

def versionLine : String := "unescape 0.1.0"

def usageLine : String := "Usage: unescape [OPTIONS] [FILE]"

def helpLines : List String :=
  ["Translate \\uXXXX unicode escapes into characters", "", usageLine, "",
   "Arguments:", "  [FILE]  Input file; reads stdin when absent or `-`", "",
   "Options:",
   "  -o, --output <FILE>  Output file (optional, defaults to stdout)",
   "      --check          Only validate the escapes, write nothing",
   "  -v, --verbose...     Increase log verbosity (-v debug, -vv trace)",
   "  -h, --help           Print help",
   "  -V, --version        Print version"]

/-- Reads the arguments, or tells how the command ends without running. -/
def parse (args : List String) : Except Ending Options :=
  match parseFrom {} args with
  | .run o => .ok o
  | .version => .error { code := 0, output := textBytes [versionLine] }
  | .help => .error { code := 0, output := textBytes helpLines }
  | .misuse => .error { code := 2, notice := textBytes [usageLine] }

end EscapedText.Arguments
