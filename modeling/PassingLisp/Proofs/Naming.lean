import PassingLisp.Proofs.Parameters

namespace PassingLisp

namespace Value

def Apart (isForm : String → Bool) (v : Value) : Prop :=
  ∀ params body env, (procedure params body env).Within v → ∀ p ∈ params, isForm p.name = false

variable {isForm : String → Bool} {v : Value}

theorem Readable.apart (h : v.Readable) : v.Apart isForm :=
  h.allParams

theorem apart_builtin {name : String} {index : Nat} : (builtin name index).Apart isForm :=
  allParams_builtin

end Value

namespace Discipline

variable {isForm : String → Bool}

def clearGlobals (isForm : String → Bool) : Discipline where
  Allows _ _ _ := True
  Scope _ _ := True
  Binds i name := i = 0 → isForm name = false
  Raises _ := True
  Open _ := True
  Live n := 0 < n
  AnyDepth := True

theorem laws_clearGlobals : (clearGlobals isForm).Laws := by
  constructor
  case live_mono =>
    intro n m hnm hn
    exact Nat.lt_of_lt_of_le hn hnm
  case procedure_binds =>
    intro n m params body env _ hn hnm p _ hm
    exact absurd (Nat.lt_of_lt_of_le hn hnm) (by omega)
  all_goals simp [clearGlobals]

def clearFrames (isForm : String → Bool) : Discipline where
  Allows _ _ v := v.Apart isForm
  Scope _ _ := True
  Binds _ name := isForm name = false
  Raises _ := True
  Open _ := True
  Live _ := True
  AnyDepth := True

theorem laws_clearFrames : (clearFrames isForm).Laws :=
  laws_withParams (P := fun ps => ∀ p ∈ ps, isForm p.name = false) (fun _ h => h) id

theorem expands_clearFrames : (clearFrames isForm).Expands :=
  expands_withParams (fun ps => ∀ p ∈ ps, isForm p.name = false) fun name => isForm name = false

end Discipline

end PassingLisp
