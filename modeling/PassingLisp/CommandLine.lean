import PassingLisp.CommandLine.Session
import PassingLisp.CommandLine.Typed

namespace PassingLisp

structure Transcript where
  stdout : String := ""
  stderr : String := ""
  code : Nat := 0

def Transcript.append (a b : Transcript) : Transcript :=
  ⟨a.stdout ++ b.stdout, a.stderr ++ b.stderr, max a.code b.code⟩

namespace CommandLine

def usage : String := Prompt.unlines [
  "Usage: repl [options] [script]",
  "Options:",
  "  -h, --help: Print this help message",
  "  --max-depth <n>: Evaluation depth limit (default: " ++ toString usualDepth ++ ")",
  "  --no-comments: Do not strip ';' comments from input"]

def errorLine (message : String) : String :=
  "Error: " ++ message ++ "\n"

def refusal (fault : Options.Fault) : Transcript :=
  { stderr := errorLine fault.message, code := 2 }

def transcriptOf : Outcome → Transcript
  | .value v => { stdout := v.text ++ "\n" }
  | .error e => { stderr := errorLine e.message, code := 1 }
  | .silent | .exit | .diverged => {}

def runScript (o : Options) (source : String) : Transcript :=
  let (outcomes, s) := (session o).runScript source
  (outcomes.map transcriptOf).foldl Transcript.append { stdout := s.takeOutput.1 }

def lines (text : List Char) : List (List Char) :=
  match text with
  | [] => []
  | c :: rest =>
      if c = '\n' then [] :: lines rest
      else
        match lines rest with
        | [] => [[c]]
        | line :: more =>
            if c = '\r' ∧ line.isEmpty ∧ rest.head? = some '\n' then [] :: more
            else (c :: line) :: more

def typedLines (input : String) : List String :=
  (lines input.toList).map fun line => String.ofList (typed line)

def runPrompt (o : Options) (input : String) : Transcript :=
  { stdout := Prompt.banner ++ Prompt.feedAll { session := session o } (typedLines input) }

def run (words : List String) (input script : String) : Transcript :=
  match Options.parse words with
  | .error fault => refusal fault
  | .ok .usage => { stdout := usage }
  | .ok (.serve o) => if o.script.isSome then runScript o script else runPrompt o input

end CommandLine

end PassingLisp
