import PassingLisp.Form.Binding
import PassingLisp.Form.Choice

namespace PassingLisp

structure FormTable where
  entries : List (String × Handler) := []

namespace FormTable

variable (t : FormTable)

def find? (name : String) : Option Handler :=
  t.entries.lookup name

def contains (name : String) : Bool :=
  (t.find? name).isSome

theorem find?_eq_none {t : FormTable} {name : String} (h : t.contains name = false) :
    t.find? name = none := by
  simpa [contains] using h

def names : List String :=
  (t.entries.map (·.1)).mergeSort fun a b => decide (a ≤ b)

def install (name : String) (handler : Handler) (σ : Store) (env : Env) :
    Except Error FormTable :=
  if t.contains name || σ.isDefined env name then .error (.formConflict name)
  else .ok ⟨t.entries ++ [(name, handler)]⟩

def invoked? (σ : Store) (env : Env) (head : String) : Option Handler :=
  match t.find? head with
  | some h => some h
  | none =>
      match σ.get? env head with
      | some (.form name) => t.find? name
      | _ => none

def core : FormTable := ⟨[
  ("quote", Form.quote),
  ("set!", Form.assignment),
  ("define", Form.definition),
  ("if", Form.choice),
  ("lambda", Form.lambda),
  ("begin", Form.begin),
  ("cond", Form.cond),
  ("defined?", Form.isDefined),
  ("locally-defined?", Form.isLocallyDefined),
  ("make-unbound!", Form.makeUnbound),
  ("make-unbound-locally!", Form.makeUnboundLocally),
  ("cons-stream", Form.consStream),
  ("and", Form.conjunction),
  ("or", Form.disjunction),
  ("let", Form.letForm)]⟩

end FormTable

end PassingLisp
