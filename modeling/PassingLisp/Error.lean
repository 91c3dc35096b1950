import PassingLisp.ParseError

namespace PassingLisp

inductive Mismatch where
  | tooFew
  | tooMany
  deriving DecidableEq

inductive Error where
  | parse (e : ParseError)
  | evaluation (text : String)
  | type (text : String)
  | unbound (name : String)
  | arity (expected got : Nat) (expression : Option String := none)
  | unknownExpression (text : String)
  | unknownProcedure (text : String)
  | formConflict (name : String)
  | referenceArgument (operand : String)
  | formRedefinition (name : String)
  | exit
  deriving DecidableEq

/-- Why an evaluation ended without a value. `diverged` stands for one that never ends, or that was
not followed to its end. -/
inductive Stop where
  | failed (e : Error)
  | diverged
  deriving DecidableEq

namespace Error

def mismatch : Error → Option Mismatch
  | arity expected got _ =>
      if got < expected then some .tooFew
      else if expected < got then some .tooMany
      else none
  | _ => none

def isExit : Error → Bool
  | exit => true
  | _ => false

def needsMore : Error → Bool
  | parse e => e.needsMore
  | _ => false

def message : Error → String
  | parse e =>
      "ParseError: " ++ e.message ++ (e.context.elim "" fun c => "\nContext: " ++ c)
  | evaluation text => "EvaluationError: " ++ text
  | type text => "Type error: " ++ text
  | unbound name => "Unbound variable: " ++ name
  | arity expected got expression =>
      "ArityError: " ++ (if expected < got then "too many arguments" else "too few arguments")
        ++ (expression.elim "" fun e => " in " ++ e)
        ++ ": expected " ++ toString expected ++ ", got " ++ toString got
  | unknownExpression text => "EvaluationError: unknown expression type: " ++ text
  | unknownProcedure text => "EvaluationError: unknown procedure type: " ++ text
  | formConflict name => "SpecialFormConflict: '" ++ name ++ "' is already defined"
  | referenceArgument operand =>
      "ReferenceArgumentError: " ++ operand ++ " is not a defined variable of the caller"
  | formRedefinition name => "Cannot redefine special form: " ++ name
  | exit => "Session exit"

theorem mismatch_eq_none_iff {expected got : Nat} {expression : Option String} :
    (arity expected got expression).mismatch = none ↔ expected = got := by
  simp only [mismatch]
  split
  · simp; omega
  · split
    · simp; omega
    · simp; omega

end Error

end PassingLisp
