import PassingLisp.Error

namespace PassingLisp

inductive Arity where
  | exactly (count : Nat)
  | atLeast (count : Nat)
  | any
  deriving DecidableEq

namespace Arity

def bound : Arity → Nat
  | exactly count | atLeast count => count
  | any => 0

def accepts : Arity → Nat → Bool
  | exactly count, got => got == count
  | atLeast count, got => count ≤ got
  | any, _ => true

def check (a : Arity) (got : Nat) : Except Error Unit :=
  if a.accepts got then .ok () else .error (.arity a.bound got)

theorem check_eq_ok_iff {a : Arity} {got : Nat} : a.check got = .ok () ↔ a.accepts got = true := by
  unfold check
  split <;> simp_all

theorem bound_ne_of_not_accepts {a : Arity} {got : Nat} (h : a.accepts got = false) :
    a.bound ≠ got := by
  cases a <;> simp_all [accepts, bound] <;> omega

end Arity

end PassingLisp
