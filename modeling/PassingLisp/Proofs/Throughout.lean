import PassingLisp.Proofs.Nesting

namespace PassingLisp

namespace Discipline

variable {D : Discipline} {i : Interpreter} {α : Type} {s : State} {env : Env} {depth : Nat}

structure Governs (D : Discipline) (i : Interpreter) : Prop where
  laws : D.Laws
  text_code {n v} : D.Allows .text n v → D.Allows .code n v
  hosts : D.HostsAll i.forms
  binds {name} : i.forms.contains name = false → ∀ k, D.Binds k name
  replies {index : Nat} {b : Builtin} : i.builtins[index]? = some b → D.Replies b

theorem Governs.admits (h : D.Governs i) (eval : Value → Env → Nat → Effect Value) :
    D.Admits (i.around eval) :=
  ⟨h.binds, h.replies⟩

theorem Governs.ends (h : D.Governs i) (fuel : Nat) {e : Value} (hg : D.Good s)
    (hc : D.Allows .code s.store.frames.size e) (he : D.Scope s.store.frames.size env) :
    D.Ends s (fun v m => D.Allows .result m v) (i.evalWithin fuel e env depth s) := by
  induction fuel generalizing e env depth s with
  | zero => exact .refl hg
  | succ fuel ih =>
      have hserves : D.Serves (i.evaluator fuel) (i.evalWithin fuel) s.stack.Inside :=
        fun hg hc he _ => .refl (ih hg hc he)
      have hstep := Routine.step h.laws h.hosts hc he
      exact (hstep.same h.laws h.text_code (h.admits _) hserves rfl hg rfl).2

theorem Governs.serves (h : D.Governs i) (fuel : Nat) (asked : Env → Env → Prop) :
    D.Serves (i.evaluator fuel) (i.evalWithin fuel) asked :=
  fun hg hc he _ => .refl (h.ends fuel hg hc he)

theorem Governs.ends_routine (h : D.Governs i) (fuel : Nat) {x : Evaluator → Nat → Effect α}
    {Q : α → Nat → Prop} (hx : Routine D s.store.frames.size x Q) (hg : D.Good s) :
    D.Ends s Q (x (i.evaluator fuel) depth s) :=
  (hx.same h.laws h.text_code (h.admits _) (h.serves fuel _) rfl hg rfl).2

theorem Governs.step_eq (h : D.Governs i) {fuel : Nat} {e : Value} (hg : D.Good s)
    (hc : D.Allows .code s.store.frames.size e) (he : D.Scope s.store.frames.size env)
    {eval' : Value → Env → Nat → Effect Value}
    (heval' : ∀ e' env' depth' t, D.Good t → D.Allows .code t.store.frames.size e' →
      D.Scope t.store.frames.size env' → s.stack.Inside env' t.stack →
      eval' e' env' depth' t = i.evalWithin fuel e' env' depth' t) :
    Evaluator.step i.forms (i.around eval') e env depth s =
      i.evalWithin (fuel + 1) e env depth s := by
  have hserves : D.Serves (i.evaluator fuel) eval' s.stack.Inside := fun hg hc he hin =>
    ⟨(heval' _ _ _ _ hg hc he hin).symm, h.ends fuel hg hc he⟩
  have hstep := Routine.step h.laws h.hosts hc he
  exact (hstep.same h.laws h.text_code (h.admits _) hserves rfl hg rfl).1.symm

end Discipline

namespace Interpreter

variable {i : Interpreter} {D : Discipline} {s : State} {env : Env} {depth : Nat} {e : Value}
  {P : Value → Env → Nat → State → Effect.Result Value → Prop}

/-- `P` holds of an evaluation and, in turn, of all that are nested in it: what else the nested
evaluations might do where it does not hold of them changes nothing. -/
def Throughout (i : Interpreter) (P : Value → Env → Nat → State → Effect.Result Value → Prop) :
    Nat → Value → Env → Nat → State → Prop
  | 0, e, env, depth, s => P e env depth s (i.evalWithin 0 e env depth s)
  | fuel + 1, e, env, depth, s =>
      P e env depth s (i.evalWithin (fuel + 1) e env depth s) ∧
        ∀ eval' : Value → Env → Nat → Effect Value,
          (∀ e' env' depth' t, i.Throughout P fuel e' env' depth' t →
            eval' e' env' depth' t = i.evalWithin fuel e' env' depth' t) →
          Evaluator.step i.forms (i.around eval') e env depth s =
            i.evalWithin (fuel + 1) e env depth s

theorem throughout_of_governs (h : D.Governs i)
    (hP : ∀ {e env depth s r}, D.Good s → D.Allows .code s.store.frames.size e →
      D.Scope s.store.frames.size env → D.Ends s (fun v m => D.Allows .result m v) r →
      P e env depth s r)
    (fuel : Nat) (hg : D.Good s) (hc : D.Allows .code s.store.frames.size e)
    (he : D.Scope s.store.frames.size env) : i.Throughout P fuel e env depth s := by
  induction fuel generalizing e env depth s with
  | zero => exact hP hg hc he (h.ends 0 hg hc he)
  | succ fuel ih =>
      refine ⟨hP hg hc he (h.ends (fuel + 1) hg hc he), fun eval' heval' => ?_⟩
      exact h.step_eq hg hc he fun e' env' depth' t hg' hc' he' _ =>
        heval' e' env' depth' t (ih hg' hc' he')

end Interpreter

end PassingLisp
