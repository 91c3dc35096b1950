import PassingLisp.CommandLine

namespace PassingLisp.CommandLine

def write (t : Transcript) : IO UInt32 := do
  (← IO.getStdout).putStr t.stdout
  (← IO.getStderr).putStr t.stderr
  return t.code.toUInt32

def chomp (line : String) : String :=
  (typedLines line).headD ""

partial def converse (input output : IO.FS.Stream) (p : Prompt) : IO Unit := do
  let line ← input.getLine
  if line.isEmpty then output.putStr p.close
  else
    let a := p.feed (chomp line)
    output.putStr a.output
    output.flush
    if let some p := a.next then converse input output p

end PassingLisp.CommandLine

open PassingLisp CommandLine in
def main (words : List String) : IO UInt32 := do
  match Options.parse words with
  | .error fault => write (refusal fault)
  | .ok .usage => write { stdout := usage }
  | .ok (.serve o) =>
      match o.script with
      | some path =>
          match ← (IO.FS.readFile path).toBaseIO with
          | .ok source => write (runScript o source)
          | .error e =>
              write { stderr := errorLine ("cannot read " ++ path ++ ": " ++ toString e), code := 1 }
      | none =>
          let output ← IO.getStdout
          output.putStr Prompt.banner
          converse (← IO.getStdin) output { session := session o }
          return 0
