import PassingLisp.Proofs.Routine.Straight

namespace PassingLisp

variable {D : Discipline} {Hosted : Handler → Prop} {n : Nat} {env : Env}

def Form.amongCalls : Handler := fun ev operands _ depth => do
  let scope ← Effect.stack
  ev.sequence operands scope depth

def Discipline.AmongCalls (D : Discipline) (Hosted : Handler → Prop) : Prop :=
  ∀ {n params body env}, D.Allows .result n (.procedure params body env) →
    ∀ p ∈ params, p.mode = .dynamic → Hosted Form.amongCalls

namespace Straight

theorem checkBindable (hL : D.Laws) (name : String) :
    Straight D Hosted n (fun ev _ => ev.checkBindable name) fun _ _ => ∀ i, D.Binds i name :=
  .ifForm name (fail hL trivial) fun hb => pure () hb

theorem settle (hL : D.Laws) {v : Value} (hv : D.Allows .element n v) :
    Straight D Hosted n (fun ev depth => ev.settle v depth) fun v m => D.Allows .result m v := by
  by_cases hd : v.IsDelayed
  · obtain ⟨id, e, scope, rfl⟩ := hd
    obtain ⟨ht, he⟩ := hL.element_delayed.mp hv
    exact .force ht he
  · have hr := hL.element_result hv hd
    cases v with
    | delayed id e scope => exact absurd ⟨id, e, scope, rfl⟩ hd
    | _ => exact pure _ hr

theorem evalSymbol (hL : D.Laws) (name : String) (he : D.Scope n env) :
    Straight D Hosted n (fun ev depth => ev.evalSymbol name env depth)
      fun v m => D.Allows .result m v := by
  refine .ifForm name (pure _ (hL.plain trivial)) fun _ => ?_
  exact .bind (resolve name he) fun v m _ hv => settle hL hv

theorem sequence (hL : D.Laws) {es : List Value} (hc : ∀ e ∈ es, D.Allows .code n e)
    (he : D.Scope n env) :
    Straight D Hosted n (fun ev depth => ev.sequence es env depth)
      fun v m => D.Allows .result m v := by
  induction es generalizing n with
  | nil => exact pure _ (hL.plain trivial)
  | cons e es ih =>
      cases es with
      | nil => exact .eval (hc e (by simp)) he
      | cons e' es =>
          refine .bind (.eval (hc e (by simp)) he) fun _ m hm _ => ?_
          exact ih (fun e'' h => hL.mono hm (hc e'' (by simp [h]))) (hL.scope_mono hm he)

theorem evalAll (hL : D.Laws) {es : List Value} (hc : ∀ e ∈ es, D.Allows .code n e)
    (he : D.Scope n env) :
    Straight D Hosted n (fun ev depth => ev.evalAll es env depth)
      fun vs m => ∀ v ∈ vs, D.Allows .result m v :=
  inOrder (f := fun ev depth e => ev.eval e env depth) (P := fun v m => D.Allows .result m v)
    (fun _ _ _ => hL.mono) fun e h _ hm => .eval (hL.mono hm (hc e h)) (hL.scope_mono hm he)

theorem callBuiltin (hL : D.Laws) {b : Builtin} (hb : D.Replies b) {args : List Value}
    (ha : ∀ a ∈ args, D.Allows .result n a) :
    Straight D Hosted n (fun ev depth => ev.callBuiltin b args depth)
      fun v m => D.Allows .result m v := by
  refine .bind (print _) fun _ m hm _ => ?_
  have hans := hb ha
  have hreply : Straight D Hosted m (fun _ _ => Effect.ofExcept (b.call args).result)
      fun v k => D.Allows .element k v := by
    cases hr : (b.call args).result with
    | ok v => exact pure v (hL.mono hm (by rwa [hr] at hans))
    | error e => exact raise (by rwa [hr] at hans)
  exact .bind hreply fun v k _ hv => settle hL hv

def Fit (D : Discipline) (f : Value) (n : Nat) (args : List Value) : Prop :=
  match f with
  | .procedure .. => ∀ a ∈ args, D.Allows .argument n a
  | _ => ∀ a ∈ args, D.Allows .result n a

theorem fit_results (hL : D.Laws) (f : Value) {args : List Value}
    (ha : ∀ a ∈ args, D.Allows .result n a) : Fit D f n args := by
  cases f with
  | procedure => exact fun a h => hL.result_argument (ha a h)
  | _ => exact ha

theorem apply (hL : D.Laws) {f : Value} {args : List Value} (hf : D.Allows .result n f)
    (ha : Fit D f n args) :
    Straight D Hosted n (fun ev depth => ev.apply f args depth)
      fun v m => D.Allows .result m v := by
  cases f with
  | builtin name index =>
      exact .withBuiltin index (fun b hb => callBuiltin hL hb ha) (fail hL trivial)
  | procedure params body scope => exact .call hf ha
  | _ => exact fail hL trivial

theorem pass (hL : D.Laws) (param : Param) (hp : param.mode = .dynamic → Hosted Form.amongCalls)
    {operand : Value} (hc : D.Allows .code n operand) (he : D.Scope n env) :
    Straight D Hosted n (fun ev depth => ev.pass param operand env depth)
      fun v m => D.Allows .argument m v := by
  obtain ⟨name, mode⟩ := param
  cases mode with
  | value => exact weaken (.eval hc he) fun v m _ => hL.result_argument
  | delayed =>
      refine .bind freshDelay fun id m hm _ => pure _ ?_
      exact hL.delayed_argument (hL.mono hm (hL.code_text hc)) (hL.scope_mono hm he)
  | dynamic =>
      have hamong : Straight D Hosted n (fun ev depth => Form.amongCalls ev [operand] env depth)
          fun v m => D.Allows .result m v := .invoke (hp rfl) (by simpa using hc) he
      exact weaken hamong fun v m _ => hL.result_argument
  | reference =>
      cases operand with
      | symbol target =>
          refine .bind (Q := fun _ _ => True) (read _ fun _ => trivial) fun b m hm _ => ?_
          cases b with
          | true => exact pure _ (hL.reference_argument (hL.scope_mono hm he))
          | false => exact fail hL trivial
      | _ => exact fail hL trivial

theorem passAll (hL : D.Laws) (operator : Value) (params : List Param)
    (hps : ∀ p ∈ params, p.mode = .dynamic → Hosted Form.amongCalls) {operands : List Value}
    (hc : ∀ e ∈ operands, D.Allows .code n e) (he : D.Scope n env) :
    Straight D Hosted n (fun ev depth => ev.passAll operator params operands env depth)
      fun vs m => ∀ v ∈ vs, D.Allows .argument m v := by
  unfold Evaluator.passAll
  by_cases hlen : params.length = operands.length
  · simp only [hlen, if_true]
    refine inOrder (f := fun ev depth (p : Param × Value) => ev.pass p.1 p.2 env depth)
      (P := fun v m => D.Allows .argument m v) (fun _ _ _ => hL.mono) fun p hp m hm => ?_
    obtain ⟨hparam, hmem⟩ := List.of_mem_zip hp
    exact pass hL p.1 (hps p.1 hparam) (hL.mono hm (hc p.2 hmem)) (hL.scope_mono hm he)
  · simp only [hlen, if_false]
    exact fail hL hlen

theorem application (hL : D.Laws) (hA : D.AmongCalls Hosted) {operator : Value}
    {operands : List Value} (ho : D.Allows .code n operator)
    (hc : ∀ e ∈ operands, D.Allows .code n e) (he : D.Scope n env) :
    Straight D Hosted n (fun ev depth => ev.application operator operands env depth)
      fun v m => D.Allows .result m v := by
  refine .bind (.eval ho he) fun f m hm hf => ?_
  have hc' := fun e h => hL.mono hm (hc e h)
  have he' := hL.scope_mono hm he
  cases f with
  | procedure params body scope =>
      exact .bind (passAll hL operator params (hA hf) hc' he') fun args k hk ha =>
        apply hL (hL.mono hk hf) ha
  | _ =>
      exact .bind (evalAll hL hc' he') fun args k hk ha =>
        apply hL (hL.mono hk hf) (fit_results hL _ ha)

end Straight

end PassingLisp
