import PassingLisp.Form.Table
import PassingLisp.Text.Find

namespace PassingLisp

open Effect

namespace Error

def contextMark : String := "\n  Context: "

def located (expr : Value) (text : String) : String :=
  if Text.holds contextMark.toList text.toList then text
  else text ++ contextMark ++ "while evaluating: " ++ expr.text

def locate (expr : Value) : Error → Error
  | evaluation text => evaluation (located expr text)
  | type text => type (located expr text)
  | e => e

end Error

def Stop.locate (expr : Value) : Stop → Stop
  | failed e => failed (e.locate expr)
  | diverged => diverged

namespace Evaluator

variable (forms : FormTable) (ev : Evaluator)

def evalList (elements : List Value) (env : Env) (depth : Nat) : Effect Value :=
  match elements with
  | .symbol head :: operands => do
      match ← read (forms.invoked? · env head) with
      | some handler => handler ev operands env depth
      | none => ev.application (.symbol head) operands env depth
  | operator :: operands =>
      if operator.isLiteral then fail (.unknownExpression (Value.list elements).text)
      else ev.application operator operands env depth
  | [] => fail (.unknownExpression (Value.list elements).text)

def step (expr : Value) (env : Env) (depth : Nat) : Effect Value :=
  match expr with
  | .eof => fail .exit
  | .symbol name => ev.evalSymbol name env depth
  | .delayed _ e scope => ev.force e scope depth
  | .reference .. => fail (.unknownExpression expr.text)
  | .list elements => explain (Stop.locate expr) (evalList forms ev elements env depth)
  | v => pure v

theorem evalList_of_invoked {head : String} {handler : Handler} {env : Env} {s : State}
    (h : forms.invoked? s.store env head = some handler) (operands : List Value) (depth : Nat) :
    evalList forms ev (.symbol head :: operands) env depth s = handler ev operands env depth s := by
  rw [evalList, bind_apply]
  simp only [Effect.read, h]

theorem evalList_of_not_invoked {head : String} {env : Env} {s : State}
    (h : forms.invoked? s.store env head = none) (operands : List Value) (depth : Nat) :
    evalList forms ev (.symbol head :: operands) env depth s =
      ev.application (.symbol head) operands env depth s := by
  rw [evalList, bind_apply]
  simp only [Effect.read, h]

end Evaluator

end PassingLisp
