import PassingLisp.Interpreter
import PassingLisp.Reader.Program

namespace PassingLisp

inductive Outcome where
  | value (v : Value)
  | silent
  | error (e : Error)
  | exit
  | diverged

namespace Outcome

def ofResult : EStateM.Result Stop State Value → Outcome
  | .ok .unspecified _ => silent
  | .ok v _ => value v
  | .error (.failed .exit) _ => exit
  | .error (.failed e) _ => error e
  | .error .diverged _ => diverged

def endsLine : Outcome → Bool
  | error _ | exit | diverged => true
  | value _ | silent => false

def endsScript : Outcome → Bool
  | exit | diverged => true
  | value _ | silent | error _ => false

def needsMore : Outcome → Bool
  | error e => e.needsMore
  | _ => false

end Outcome

def stateAfter {α : Type} : EStateM.Result Stop State α → State
  | .ok _ s => s
  | .error _ s => s

structure Session where
  interpreter : Interpreter := {}
  state : State := .initial
  comments : Bool := true

namespace Session

def evalItem : Session → Value → Outcome × Session
  | ⟨interpreter, state, comments⟩, item =>
      let r := interpreter.eval item .globals 0 state
      (Outcome.ofResult r, ⟨interpreter, stateAfter r, comments⟩)

def evalItems : Outcome → List Value → Session → Outcome × Session
  | last, [], s => (last, s)
  | _, item :: items, s =>
      let (outcome, s) := s.evalItem item
      if outcome.endsLine then (outcome, s) else evalItems outcome items s

def evalLine (s : Session) (line : String) : Outcome × Session :=
  match Reader.program s.comments line.toList with
  | .error e => (.error (.parse e), s)
  | .ok items => evalItems .silent items s

def runItems : List Value → Session → List Outcome × Session
  | [], s => ([], s)
  | item :: items, s =>
      let (outcome, s) := s.evalItem item
      if outcome.endsScript then ([outcome], s)
      else
        let (outcomes, s) := runItems items s
        (outcome :: outcomes, s)

def runScript (s : Session) (source : String) : List Outcome × Session :=
  match Reader.program s.comments source.toList with
  | .error e => ([.error (.parse e)], s)
  | .ok items => runItems items s

def takeOutput (s : Session) : String × Session :=
  (s.state.output, { s with state := { s.state with output := "" } })

end Session

end PassingLisp
