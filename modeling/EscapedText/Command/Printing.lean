import EscapedText.Command.Host

/-! Messages as the lines that they are printed as. -/
namespace EscapedText

def LogRecord.line (r : LogRecord) : String :=
  r.level.name ++ " " ++ r.message ++
    String.join (r.fields.map fun f => " " ++ f.1 ++ "=" ++ f.2)

/-- Several causes are numbered from the outermost on. -/
def causeLines : List String → List String
  | [cause] => ["    " ++ cause]
  | causes => causes.zipIdx.map fun (cause, i) => s!"    {i}: " ++ cause

def failureLines : List String → List String
  | [] => ["Error"]
  | [failure] => ["Error: " ++ failure]
  | failure :: causes => ["Error: " ++ failure, "", "Caused by:"] ++ causeLines causes

def Message.bytes : Message → List UInt8
  | .record r => textBytes [r.line]
  | .failure causes => textBytes (failureLines causes)
  | .brokenOff => textBytes ["the run is broken off"]
  | .text bytes => bytes

end EscapedText
