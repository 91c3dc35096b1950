import PassingLisp.Prompt.Help
import PassingLisp.Prompt.Listing
import PassingLisp.Session

namespace PassingLisp

inductive Prompt.Command where
  | help
  | environment
  | forms
  | quit

structure Prompt where
  session : Session
  pending : Option String := none

structure Prompt.Answer where
  output : String
  next : Option Prompt

namespace Prompt

def Command.ofText? (text : String) : Option Command :=
  if text = ":help" then some .help
  else if text = ":env" then some .environment
  else if text = ":forms" then some .forms
  else if text = ":quit" || text = ":exit" then some .quit
  else none

def Answer.ofOutcome (printed : String) (s : Session) : Outcome → Answer
  | .value v => ⟨printed ++ v.text ++ "\n", some { session := s }⟩
  | .silent => ⟨printed, some { session := s }⟩
  | .error e => ⟨printed ++ "Error: " ++ e.message ++ "\n", some { session := s }⟩
  | .exit => ⟨printed ++ farewell, none⟩
  | .diverged => ⟨printed, none⟩

variable (p : Prompt)

def submit (text : String) : Answer :=
  let (outcome, s) := p.session.evalLine text
  let (printed, s) := s.takeOutput
  if outcome.needsMore then ⟨printed, some { session := s, pending := some text }⟩
  else .ofOutcome printed s outcome

def obey : Command → Answer
  | .help => ⟨helpText, some p⟩
  | .environment => ⟨environment (p.session.state.store.listing .globals), some p⟩
  | .forms => ⟨forms p.session.interpreter.forms.names, some p⟩
  | .quit => ⟨farewell, none⟩

def feed (line : String) : Answer :=
  match p.pending with
  | some text => p.submit (text ++ "\n" ++ line)
  | none =>
      let text := String.ofList (Text.trim line.toList)
      if text.isEmpty then ⟨"", some p⟩
      else match Command.ofText? text with
        | some command => p.obey command
        | none => p.submit line

def close : String :=
  match (p.session.evalItem .eof).1 with
  | .exit => farewell
  | _ => ""

def feedAll : Prompt → List String → String
  | p, [] => p.close
  | p, line :: lines =>
      let a := p.feed line
      match a.next with
      | some p => a.output ++ feedAll p lines
      | none => a.output

end Prompt

end PassingLisp
