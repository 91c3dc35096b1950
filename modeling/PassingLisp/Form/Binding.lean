import PassingLisp.Form.Params

namespace PassingLisp.Form

open Effect

def quote : Handler := fun _ operands _ _ =>
  match operands with
  | [e] => pure e
  | _ => fail (.arity 1 operands.length)

def assignment : Handler := fun ev operands env depth =>
  match operands with
  | [.symbol name, e] => do
      ev.checkBindable name
      let v ← ev.eval e env depth
      assign env name v
      pure .unspecified
  | [_, _] => fail (.type "set! requires a symbol")
  | _ => fail (.arity 2 operands.length)

def definition : Handler := fun ev operands env depth =>
  match operands with
  | [.symbol name, e] => do
      ev.checkBindable name
      let v ← ev.eval e env depth
      define env name v
      pure (.symbol name)
  | .list (.symbol name :: specs) :: first :: rest => do
      ev.checkBindable name
      let f ← makeProcedure ev specs (first :: rest) env
      define env name f
      pure (.symbol name)
  | .list _ :: _ :: _ => fail (.type "define requires a procedure name")
  | [_, _] => fail (.type "define requires a symbol")
  | _ => fail (.arity 2 operands.length)

def lambda : Handler := fun ev operands env _ =>
  match operands with
  | .list specs :: first :: rest => makeProcedure ev specs (first :: rest) env
  | [.list _] => fail (.evaluation "lambda requires a body")
  | _ :: _ => fail (.type "Lambda parameters must be a list")
  | [] => fail (.arity 2 0)

def onSymbol (form : String) (action : String → Env → Effect Value) : Handler :=
  fun _ operands env _ =>
    match operands with
    | [.symbol name] => action name env
    | [_] => fail (.type (form ++ " requires a symbol"))
    | _ => fail (.arity 1 operands.length)

def isDefined : Handler :=
  onSymbol "defined?" fun name env => do
    let b ← read (·.isDefined env name)
    pure (.bool b)

def isLocallyDefined : Handler :=
  onSymbol "locally-defined?" fun name env => do
    let b ← read (·.isLocallyDefined env name)
    pure (.bool b)

def makeUnbound : Handler :=
  onSymbol "make-unbound!" fun name env => do
    unbind env name
    pure .unspecified

def makeUnboundLocally : Handler :=
  onSymbol "make-unbound-locally!" fun name env => do
    unbindLocally env name
    pure .unspecified

def letBindings : List Value → Except Error (List Value × List Value)
  | [] => .ok ([], [])
  | .list [.symbol name, e] :: rest =>
      match letBindings rest with
      | .ok (names, inits) => .ok (.symbol name :: names, e :: inits)
      | .error err => .error err
  | b :: _ => .error (.type ("let binding must be (name expr): " ++ b.text))

def letForm : Handler := fun ev operands env depth =>
  match operands with
  | .list bindings :: body =>
      if body.isEmpty then fail (.evaluation "let requires a body")
      else do
        let (names, inits) ← ofExcept (letBindings bindings)
        let f ← makeProcedure ev names body env
        let values ← ev.evalAll inits env depth
        ev.apply f values depth
  | _ => fail (.type "let requires a binding list")

end PassingLisp.Form
