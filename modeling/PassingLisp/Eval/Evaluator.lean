import PassingLisp.Eval.Effect

namespace PassingLisp

/-- What the parts of an evaluator and the handlers of forms work with: `eval` evaluates whatever
they find nested in their expression. `depth` counts the applications and forcings in progress. -/
structure Evaluator where
  eval : Value → Env → Nat → Effect Value
  isForm : String → Bool
  builtin? : Nat → Option Builtin
  maxDepth : Nat

abbrev Handler := Evaluator → List Value → Env → Nat → Effect Value

namespace Evaluator

open Effect

variable (ev : Evaluator)

def sequence : List Value → Env → Nat → Effect Value
  | [], _, _ => pure .unspecified
  | [e], env, depth => ev.eval e env depth
  | e :: es, env, depth => do
      let _ ← ev.eval e env depth
      sequence es env depth

def evalAll (es : List Value) (env : Env) (depth : Nat) : Effect (List Value) :=
  inOrder (fun e => ev.eval e env depth) es

def descend (depth : Nat) : Effect Nat :=
  if ev.maxDepth ≤ depth then
    fail (.evaluation
      ("Evaluation depth limit exceeded (max: " ++ toString ev.maxDepth ++ ")"))
  else pure (depth + 1)

theorem descend_of_lt {depth : Nat} (h : depth < ev.maxDepth) :
    ev.descend depth = pure (depth + 1) :=
  if_neg (Nat.not_le_of_lt h)

theorem descend_of_le {depth : Nat} (h : ev.maxDepth ≤ depth) :
    ev.descend depth = fail (.evaluation
      ("Evaluation depth limit exceeded (max: " ++ toString ev.maxDepth ++ ")")) :=
  if_pos h

def force (expr : Value) (env : Env) (depth : Nat) : Effect Value := do
  let depth ← ev.descend depth
  ev.eval expr env depth

def settle (v : Value) (depth : Nat) : Effect Value :=
  match v with
  | .delayed _ expr env => ev.force expr env depth
  | v => pure v

def evalSymbol (name : String) (env : Env) (depth : Nat) : Effect Value :=
  if ev.isForm name then pure (.form name)
  else do
    let v ← resolve env name
    ev.settle v depth

def checkBindable (name : String) : Effect Unit :=
  if ev.isForm name then fail (.formRedefinition name) else pure ()

def callBuiltin (b : Builtin) (args : List Value) (depth : Nat) : Effect Value := do
  let reply := b.call args
  print reply.output
  let v ← ofExcept reply.result
  ev.settle v depth

def callProcedure (params : List Param) (body : List Value) (env : Env) (args : List Value)
    (depth : Nat) : Effect Value := do
  let depth ← ev.descend depth
  let scope ← extend env (params.map Param.name) args
  inCall scope (ev.sequence body scope depth)

def apply (f : Value) (args : List Value) (depth : Nat) : Effect Value :=
  match f with
  | .builtin _ index =>
      match ev.builtin? index with
      | some b => ev.callBuiltin b args depth
      | none => fail (.unknownProcedure f.text)
  | .procedure params body env => ev.callProcedure params body env args depth
  | f => fail (.unknownProcedure f.text)

def pass (param : Param) (operand : Value) (env : Env) (depth : Nat) : Effect Value :=
  match param.mode with
  | .value => ev.eval operand env depth
  | .delayed => do
      let id ← freshDelay
      pure (.delayed id operand env)
  | .dynamic => do
      let scope ← stack
      ev.eval operand scope depth
  | .reference =>
      match operand with
      | .symbol name => do
          if ← read (·.isDefined env name) then pure (.reference name env)
          else fail (.referenceArgument operand.text)
      | operand => fail (.referenceArgument operand.text)

def passAll (operator : Value) (params : List Param) (operands : List Value) (env : Env)
    (depth : Nat) : Effect (List Value) :=
  if params.length = operands.length then
    inOrder (fun p => ev.pass p.1 p.2 env depth) (params.zip operands)
  else fail (.arity params.length operands.length (some operator.text))

def application (operator : Value) (operands : List Value) (env : Env) (depth : Nat) :
    Effect Value := do
  let f ← ev.eval operator env depth
  let args ← match f with
    | .procedure params _ _ => ev.passAll operator params operands env depth
    | _ => ev.evalAll operands env depth
  ev.apply f args depth

end Evaluator

end PassingLisp
