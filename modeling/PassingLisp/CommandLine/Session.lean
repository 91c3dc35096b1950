import PassingLisp.Options
import PassingLisp.Prompt

namespace PassingLisp.CommandLine

def session (o : Options) : Session :=
  let i : Interpreter := { maxDepth := o.maxDepth }
  let s : Session := { interpreter := i, comments := o.comments }
  match i.register "help" Prompt.help s.state.store with
  | .ok (i, σ) => { s with interpreter := i, state := { s.state with store := σ } }
  | .error _ => s

end PassingLisp.CommandLine
