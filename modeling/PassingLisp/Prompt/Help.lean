import PassingLisp.Builtin

namespace PassingLisp.Prompt

def unlines (lines : List String) : String :=
  String.join (lines.map (· ++ "\n"))

def banner : String := unlines [
  "paramlisp - Lisp with per-parameter passing strategies",
  "Enter S-expressions like: (define (twice (delayed e)) (+ e e))",
  "Type :help for more commands, or Ctrl+D to exit.",
  ""]

def helpText : String := unlines [
  "paramlisp commands:",
  "  :help      - Show this help message",
  "  :env       - Show current global bindings",
  "  :forms     - List installed special forms",
  "  :quit      - Exit the interpreter",
  "  Ctrl+D     - Exit the interpreter",
  "",
  "Parameter passing (per parameter, in lambda lists):",
  "  x              - evaluated before the call",
  "  (delayed x)    - re-evaluated in the caller on every use",
  "  (dynamic x)    - evaluated against the active callers' bindings",
  "  (reference x)  - aliases the caller's variable",
  "",
  "Examples:",
  "  (define (double! (reference r)) (set! r (* r 2)))",
  "  (define (ints n) (cons-stream n (ints (+ n 1))))",
  "  (stream-car (stream-cdr (ints 0)))",
  ""]

def farewell : String := "Goodbye!\n"

def help : Builtin := ⟨.exactly 0, fun _ => .print helpText⟩

end PassingLisp.Prompt
