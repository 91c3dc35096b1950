import PassingLisp.Builtin.Registry
import PassingLisp.Eval.Step

namespace PassingLisp

def usualDepth : Nat := 2048

structure Interpreter where
  forms : FormTable := .core
  builtins : Array Builtin := (Builtin.core.map (·.2)).toArray
  maxDepth : Nat := usualDepth

def Env.globals : Env := .scope .lexical 0 .empty

namespace State

def coreFrame : Frame :=
  .ofList <|
    Builtin.core.zipIdx.map (fun b => (b.1.1, .builtin b.1.1 b.2)) ++
      [("the-empty-stream", .list [])]

def initial : State where
  store := { frames := #[coreFrame] }
  stack := .globals

end State

namespace Interpreter

variable (i : Interpreter)

def around (eval : Value → Env → Nat → Effect Value) : Evaluator where
  eval := eval
  isForm := i.forms.contains
  builtin? := (i.builtins[·]?)
  maxDepth := i.maxDepth

/-- Evaluates with at most `fuel` evaluations inside one another. -/
def evalWithin : Nat → Value → Env → Nat → Effect Value
  | 0, _, _, _ => throw .diverged
  | fuel + 1, expr, env, depth =>
      Evaluator.step i.forms (i.around (evalWithin fuel)) expr env depth

def evaluator (fuel : Nat) : Evaluator :=
  i.around (i.evalWithin fuel)

def ample : Nat := Nat.pow 2 62

def eval (expr : Value) (env : Env := .globals) (depth : Nat := 0) : Effect Value :=
  i.evalWithin ample expr env depth

def sequence (body : List Value) (env : Env) (depth : Nat) : Effect Value :=
  (i.evaluator ample).sequence body env depth

def apply (f : Value) (args : List Value) : Effect Value :=
  (i.evaluator ample).apply f args 0

def invoke? (name : String) (operands : List Value) (env : Env) (depth : Nat) :
    Option (Effect Value) :=
  (i.forms.find? name).map fun handler => handler (i.evaluator ample) operands env depth

def install (name : String) (handler : Handler) (σ : Store) : Except Error Interpreter :=
  match i.forms.install name handler σ .globals with
  | .ok forms => .ok { i with forms := forms }
  | .error e => .error e

def register (name : String) (b : Builtin) (σ : Store) : Except Error (Interpreter × Store) :=
  if i.forms.contains name then .error (.formConflict name)
  else
    match σ.define .globals name (.builtin name i.builtins.size) with
    | .ok σ => .ok ({ i with builtins := i.builtins.push b }, σ)
    | .error e => .error e

end Interpreter

end PassingLisp
