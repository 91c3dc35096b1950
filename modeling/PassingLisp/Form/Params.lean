import PassingLisp.Eval.Evaluator

namespace PassingLisp.Form

def paramOf (spec : Value) : Except Error Param :=
  match spec with
  | .symbol name => .ok ⟨name, .value⟩
  | .list [.symbol tag, .symbol name] =>
      match Mode.ofTag tag with
      | some mode => .ok ⟨name, mode⟩
      | none => .error (.type ("Unknown parameter tag: " ++ tag))
  | .list _ => .error (.type ("Malformed parameter specification: " ++ spec.text))
  | _ => .error (.type "Lambda parameters must be symbols or (tag symbol) pairs")

def paramsAfter (isForm : String → Bool) : List String → List Value → Except Error (List Param)
  | _, [] => .ok []
  | taken, spec :: specs =>
      match paramOf spec with
      | .error e => .error e
      | .ok p =>
          if isForm p.name then .error (.formRedefinition p.name)
          else if p.name ∈ taken then
            .error (.evaluation ("Duplicate parameter name: " ++ p.name))
          else (paramsAfter isForm (p.name :: taken) specs).map (p :: ·)

def params (isForm : String → Bool) (specs : List Value) : Except Error (List Param) :=
  paramsAfter isForm [] specs

def makeProcedure (ev : Evaluator) (specs body : List Value) (env : Env) : Effect Value :=
  match params ev.isForm specs with
  | .ok ps => pure (.procedure ps body env)
  | .error e => Effect.fail e

end PassingLisp.Form
