import PassingLisp.Eval.Evaluator

namespace PassingLisp.Form

open Effect

def choice : Handler := fun ev operands env depth =>
  match operands with
  | [test, e] => do
      let v ← ev.eval test env depth
      if v.isTrue then ev.eval e env depth else pure (.bool false)
  | [test, e, otherwise] => do
      let v ← ev.eval test env depth
      if v.isTrue then ev.eval e env depth else ev.eval otherwise env depth
  | _ => fail (.arity 3 operands.length)

def begin : Handler := fun ev operands env depth =>
  ev.sequence operands env depth

def sequenceToExpr : List Value → Value
  | [e] => e
  | es => .list (.symbol "begin" :: es)

def condToIf : List Value → Except Error Value
  | [] => .ok (.bool false)
  | clause :: rest =>
      match clause with
      | .list [] => .error (.evaluation "empty cond clause")
      | .list [_] => .error (.evaluation ("cond clause has no body: " ++ clause.text))
      | .list (test :: body) =>
          if test.symbol? = some "else" then
            if rest.isEmpty then .ok (sequenceToExpr body)
            else .error (.evaluation "else clause must be the last cond clause")
          else
            (condToIf rest).map fun alternative =>
              .list [.symbol "if", test, sequenceToExpr body, alternative]
      | _ => .error (.type ("cond clause must be a list: " ++ clause.text))

def cond : Handler := fun ev operands env depth =>
  match condToIf operands with
  | .ok e => ev.eval e env depth
  | .error e => fail e

def untilTruth (stop : Bool) (ev : Evaluator) : Value → List Value → Env → Nat → Effect Value
  | last, [], _, _ => pure last
  | _, e :: es, env, depth => do
      let v ← ev.eval e env depth
      if v.isTrue = stop then pure v else untilTruth stop ev v es env depth

def conjunction : Handler := fun ev operands env depth =>
  untilTruth false ev (.bool true) operands env depth

def disjunction : Handler := fun ev operands env depth =>
  untilTruth true ev (.bool false) operands env depth

def consStream : Handler := fun ev operands env depth =>
  match operands with
  | [head, tail] => do
      let v ← ev.eval head env depth
      let id ← freshDelay
      pure (.list [v, .delayed id tail env])
  | _ => fail (.arity 2 operands.length)

end PassingLisp.Form
