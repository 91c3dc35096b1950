import PassingLisp.Proofs.Throughout

namespace PassingLisp

open Discipline

namespace Discipline

theorem good_anything (s : State) : anything.Good s :=
  ⟨trivial, trivial, fun _ _ _ _ => ⟨trivial, trivial⟩⟩

end Discipline

namespace Interpreter

variable {i : Interpreter}

def OnlyEvaluates (i : Interpreter) : Prop :=
  ∀ entry ∈ i.forms.entries, entry ∈ FormTable.core.entries ∨ anything.Hosts entry.2

theorem OnlyEvaluates.governs (h : i.OnlyEvaluates) : anything.Governs i where
  laws := laws_anything
  text_code _ := trivial
  hosts entry hmem := by
    rcases h entry hmem with hcore | hhost
    · exact Routine.hosts_core laws_anything expands_anything entry hcore
    · exact hhost
  binds _ _ := trivial
  replies _ := replies_anything _

structure BalancesCalls (i : Interpreter) : Prop where
  eval (fuel : Nat) (e : Value) (env : Env) (depth : Nat) (s : State) :
    (stateAfter (i.evalWithin fuel e env depth s)).stack = s.stack
  sequence (fuel : Nat) (es : List Value) (env : Env) (depth : Nat) (s : State) :
    (stateAfter ((i.evaluator fuel).sequence es env depth s)).stack = s.stack
  apply (fuel : Nat) (f : Value) (args : List Value) (depth : Nat) (s : State) :
    (stateAfter ((i.evaluator fuel).apply f args depth s)).stack = s.stack
  /-- All that is nested in an evaluation begins with the calls it was begun with, or as the body
  of one more: other evaluations make no difference. -/
  nested (fuel : Nat) (e : Value) (env : Env) (depth : Nat) (s : State)
    (eval' : Value → Env → Nat → Effect Value) :
    (∀ e' env' depth' t, s.stack.Inside env' t.stack →
      eval' e' env' depth' t = i.evalWithin fuel e' env' depth' t) →
    Evaluator.step i.forms (i.around eval') e env depth s = i.evalWithin (fuel + 1) e env depth s
  body (fuel : Nat) (params : List Param) (body : List Value) (env : Env) (args : List Value)
    (depth : Nat) (s : State) (eval' : Value → Env → Nat → Effect Value) :
    depth < i.maxDepth → params.length = args.length →
    (∀ e depth' t, t.stack = .scope .dynamic s.store.frames.size s.stack →
      eval' e (.scope .lexical s.store.frames.size env) depth' t =
        i.evalWithin fuel e (.scope .lexical s.store.frames.size env) depth' t) →
    (stateAfter ((i.around eval').runBody params body env args depth s)).stack =
        .scope .dynamic s.store.frames.size s.stack ∧
      (i.evaluator fuel).callProcedure params body env args depth s =
        Effect.leave s.stack ((i.around eval').runBody params body env args depth s)

theorem OnlyEvaluates.stack_sequence (h : i.OnlyEvaluates) (fuel : Nat) (es : List Value)
    (env : Env) (depth : Nat) (s : State) :
    (stateAfter ((i.evaluator fuel).sequence es env depth s)).stack = s.stack := by
  have hes (e : Value) (_ : e ∈ es) : anything.Allows .code s.store.frames.size e := trivial
  have henv : anything.Scope s.store.frames.size env := trivial
  have hroutine := Routine.sequence laws_anything hes henv
  exact (h.governs.ends_routine fuel hroutine (good_anything s)).after.stack_eq

theorem OnlyEvaluates.stack_apply (h : i.OnlyEvaluates) (fuel : Nat) (f : Value)
    (args : List Value) (depth : Nat) (s : State) :
    (stateAfter ((i.evaluator fuel).apply f args depth s)).stack = s.stack := by
  have hf : anything.Allows .result s.store.frames.size f := trivial
  have hargs (a : Value) (_ : a ∈ args) : anything.Allows .result s.store.frames.size a := trivial
  have hroutine := Routine.apply laws_anything hf (Straight.fit_results laws_anything f hargs)
  exact (h.governs.ends_routine fuel hroutine (good_anything s)).after.stack_eq

theorem OnlyEvaluates.callProcedure_eq (h : i.OnlyEvaluates) {fuel : Nat} {params : List Param}
    {body : List Value} {env : Env} {args : List Value} {depth : Nat} {s : State}
    {eval' : Value → Env → Nat → Effect Value} (hd : depth < i.maxDepth)
    (hlen : params.length = args.length)
    (heval' : ∀ e depth' t, t.stack = .scope .dynamic s.store.frames.size s.stack →
      eval' e (.scope .lexical s.store.frames.size env) depth' t =
        i.evalWithin fuel e (.scope .lexical s.store.frames.size env) depth' t) :
    (stateAfter ((i.around eval').runBody params body env args depth s)).stack =
        .scope .dynamic s.store.frames.size s.stack ∧
      (i.evaluator fuel).callProcedure params body env args depth s =
        Effect.leave s.stack ((i.around eval').runBody params body env args depth s) := by
  let asked (scope stack : Env) : Prop := scope = .scope .lexical s.store.frames.size env ∧
    stack = .scope .dynamic s.store.frames.size s.stack
  have hserves : anything.Serves (i.evaluator fuel) eval' asked := by
    rintro e _ depth' t - - - ⟨rfl, hstack⟩
    exact ⟨(heval' e depth' t hstack).symm,
      h.governs.ends fuel (good_anything t) trivial trivial⟩
  have hbody (e : Value) (_ : e ∈ body) :
      anything.Allows .code (s.store.frames.size + 1) e := trivial
  obtain ⟨heq, hends⟩ : anything.Same (s.called env ((params.map Param.name).zip args)) _ _ _ :=
    hserves.sequence laws_anything (good_anything _) hbody trivial ⟨rfl, rfl⟩
  have hstack := hends.after.stack_eq
  have hleave := (i.evaluator fuel).callProcedure_eq_leave hd hlen hstack
  rw [heq] at hstack
  exact ⟨hstack, hleave.trans (congrArg _ heq)⟩

theorem balancesCalls (h : i.OnlyEvaluates) : i.BalancesCalls where
  eval fuel e env depth s :=
    (h.governs.ends fuel (good_anything s) trivial trivial).after.stack_eq
  sequence := h.stack_sequence
  apply := h.stack_apply
  nested fuel e env depth s eval' heval' := by
    refine h.governs.step_eq (good_anything s) trivial trivial ?_
    intro e' env' depth' t _ _ _ hinside
    exact heval' e' env' depth' t hinside
  body fuel params body env args depth s eval' hd hlen heval' :=
    h.callProcedure_eq hd hlen heval'

def hosting : Interpreter where
  forms := ⟨FormTable.core.entries ++ [("among-calls", Form.amongCalls)]⟩

theorem balancesCalls_hosting : hosting.OnlyEvaluates ∧ hosting.BalancesCalls := by
  have h : hosting.OnlyEvaluates := by
    intro entry hmem
    rcases List.mem_append.mp hmem with hcore | hhost
    · exact .inl hcore
    · rw [List.mem_singleton.mp hhost]
      exact .inr (Routine.hosts_amongCalls laws_anything)
  exact ⟨h, balancesCalls h⟩

end Interpreter

end PassingLisp
