import PassingLisp.Proofs.FirstMatch
import PassingLisp.Proofs.Shapes

namespace PassingLisp

open Effect

namespace Form

def lambdaExpr (specs body : List Value) : Value :=
  .list (.symbol "lambda" :: .list specs :: body)

def letExpr (bindings : List (String × Value)) (body : List Value) : Value :=
  .list (.symbol "let" :: .list (bindings.map fun b => .list [.symbol b.1, b.2]) :: body)

theorem letForm_eq {bindings names inits : List Value}
    (h : letBindings bindings = .ok (names, inits)) (ev : Evaluator) (e : Value) (es : List Value)
    (env : Env) (depth : Nat) :
    letForm ev (.list bindings :: e :: es) env depth =
      makeProcedure ev names (e :: es) env >>= fun f =>
        ev.evalAll inits env depth >>= fun values => ev.apply f values depth := by
  simp only [letForm, h, Effect.ofExcept, pure_bind]
  rfl

end Form

namespace Evaluator

variable (ev : Evaluator) {env : Env} {depth : Nat}

theorem passAll_eq_evalAll (operator : Value) {params : List Param} {operands : List Value}
    (hlen : params.length = operands.length) (h : ∀ p ∈ params, p.mode = .value) :
    ev.passAll operator params operands env depth = ev.evalAll operands env depth := by
  rw [passAll, if_pos hlen]
  induction params generalizing operands with
  | nil =>
      obtain rfl := List.eq_nil_of_length_eq_zero hlen.symm
      rfl
  | cons p params ih =>
      cases operands with
      | nil => cases hlen
      | cons e es =>
          have hpass : ev.pass p e env depth = ev.eval e env depth := by
            obtain ⟨name, mode⟩ := p
            obtain rfl : mode = .value := h _ List.mem_cons_self
            rfl
          have hrest := ih (Nat.succ_inj.mp hlen) fun q hq => h q (List.mem_cons_of_mem _ hq)
          simp only [evalAll] at hrest ⊢
          rw [List.zip_cons_cons, inOrder, inOrder, hrest, hpass]

end Evaluator

namespace Interpreter

variable {i : Interpreter} {fuel depth : Nat} {env : Env} {s : State}

theorem plain_evalWithin_list (fuel : Nat) (elements operands : List Value) (env : Env)
    (depth : Nat) :
    (i.evalWithin (fuel + 1) (.list (.list elements :: operands)) env depth).plain =
      ((i.evaluator fuel).application (.list elements) operands env depth).plain :=
  plain_explain_locate _ _

section

variable (hi : i.KeepsForms)

include hi

theorem KeepsForms.plain_form {head : String} {handler : Handler}
    (h : FormTable.core.find? head = some handler) (fuel : Nat) (operands : List Value) (env : Env)
    (depth : Nat) :
    (i.evalWithin (fuel + 1) (.list (.symbol head :: operands)) env depth).plain =
      (handler (i.evaluator fuel) operands env depth).plain := by
  funext s
  exact plain_evalWithin_of_invoked (hi.invoked? h s.store env) fuel operands depth

theorem KeepsForms.plain_lambda (fuel : Nat) (specs : List Value) (e : Value) (es : List Value)
    (env : Env) (depth : Nat) :
    (i.evalWithin (fuel + 1) (Form.lambdaExpr specs (e :: es)) env depth).plain =
      (Form.makeProcedure (i.evaluator fuel) specs (e :: es) env).plain := by
  have hlambda : FormTable.core.find? "lambda" = some Form.lambda := rfl
  exact hi.plain_form hlambda fuel (.list specs :: e :: es) env depth

theorem KeepsForms.plain_call_lambda (fuel : Nat) {names : List String} {operands : List Value}
    (hlen : names.length = operands.length) (e : Value) (es : List Value) (env : Env)
    (depth : Nat) :
    (i.evalWithin (fuel + 2) (.list (Form.lambdaExpr (names.map .symbol) (e :: es) :: operands))
        env depth).plain =
      (Form.makeProcedure (i.evaluator (fuel + 1)) (names.map .symbol) (e :: es) env >>= fun f =>
        (i.evaluator (fuel + 1)).evalAll operands env depth >>= fun values =>
          (i.evaluator (fuel + 1)).apply f values depth).plain := by
  have hoperator : ((i.evaluator (fuel + 1)).eval (Form.lambdaExpr (names.map .symbol) (e :: es))
      env depth).plain = _ := hi.plain_lambda fuel (names.map .symbol) e es env depth
  have hlist := plain_evalWithin_list (i := i) (fuel + 1)
    (.symbol "lambda" :: .list (names.map .symbol) :: e :: es) operands env depth
  rw [Form.lambdaExpr] at hoperator ⊢
  rw [hlist, Evaluator.application, plain_bind, plain_bind, hoperator]
  cases hps : Form.params i.forms.contains (names.map .symbol) with
  | error err =>
      rw [Form.makeProcedure_of_error (i.evaluator fuel) hps,
        Form.makeProcedure_of_error (i.evaluator (fuel + 1)) hps]
      rfl
  | ok ps =>
      obtain rfl := Form.eq_plain_of_map_symbol (Form.params_eq_ok_iff.mp hps).1
      rw [Form.makeProcedure_of_params (i.evaluator fuel) hps,
        Form.makeProcedure_of_params (i.evaluator (fuel + 1)) hps]
      have hpass (operator : Value) : (i.evaluator (fuel + 1)).passAll operator
          (names.map fun name => ⟨name, .value⟩) operands env depth =
            (i.evaluator (fuel + 1)).evalAll operands env depth :=
        (i.evaluator (fuel + 1)).passAll_eq_evalAll operator (by simpa using hlen) (by simp)
      have hplain (f : Value) : (pure f : Effect Value).plain = pure f := rfl
      simp only [hplain, pure_bind, hpass]

theorem KeepsForms.plain_letExpr (fuel : Nat) (bindings : List (String × Value)) (e : Value)
    (es : List Value) (env : Env) (depth : Nat) :
    (i.evalWithin (fuel + 2) (Form.letExpr bindings (e :: es)) env depth).plain =
      (i.evalWithin (fuel + 2) (.list (Form.lambdaExpr ((bindings.map (·.1)).map .symbol) (e :: es)
        :: bindings.map (·.2))) env depth).plain := by
  have hlet : FormTable.core.find? "let" = some Form.letForm := rfl
  have hpairs := Form.letBindings_eq_ok_iff.mpr ⟨bindings, rfl, rfl, rfl⟩
  rw [hi.plain_call_lambda fuel (by simp), Form.letExpr, hi.plain_form hlet,
    Form.letForm_eq hpairs]

theorem KeepsForms.plain_define_lambda (fuel : Nat) (name : String) (specs : List Value)
    (e : Value) (es : List Value) (env : Env) (depth : Nat) :
    (i.evalWithin (fuel + 2) (.list (.symbol "define" :: .list (.symbol name :: specs) :: e :: es))
        env depth).plain =
      (i.evalWithin (fuel + 2)
        (.list [.symbol "define", .symbol name, Form.lambdaExpr specs (e :: es)]) env
        depth).plain := by
  have hdefine : FormTable.core.find? "define" = some Form.definition := rfl
  have hvalue : ((i.evaluator (fuel + 1)).eval (Form.lambdaExpr specs (e :: es)) env depth).plain =
      _ := hi.plain_lambda fuel specs e es env depth
  rw [hi.plain_form hdefine, hi.plain_form hdefine, Form.definition, Form.definition]
  simp only [plain_bind, hvalue]
  rfl

theorem KeepsForms.plain_conjunction (fuel : Nat) (e e' : Value) (es : List Value) (env : Env)
    (depth : Nat) :
    (i.evalWithin (fuel + 1) (.list (.symbol "and" :: e :: e' :: es)) env depth).plain =
      (i.evalWithin fuel e env depth).plain >>= fun v =>
        if v.isTrue then
          (i.evalWithin (fuel + 1) (.list (.symbol "and" :: e' :: es)) env depth).plain
        else pure (.bool false) := by
  have hand : FormTable.core.find? "and" = some Form.conjunction := rfl
  rw [hi.plain_form hand, hi.plain_form hand, Form.conjunction, Form.untilTruth, plain_bind]
  refine congrArg (_ >>= ·) (funext fun v => ?_)
  cases hv : v.isTrue with
  | true => rfl
  | false =>
      rw [Value.isTrue_eq_false_iff.mp hv]
      rfl

end

def Alike (i : Interpreter) (env : Env) (depth : Nat) (s : State) (e e' : Value) : Prop :=
  ∀ r, Settles (fun fuel => (i.evalWithin fuel e env depth).plain) s r ↔
    Settles (fun fuel => (i.evalWithin fuel e' env depth).plain) s r

theorem alike_of_eq (k : Nat) {e e' : Value}
    (h : ∀ fuel, (i.evalWithin (fuel + k) e env depth).plain =
      (i.evalWithin (fuel + k) e' env depth).plain) : i.Alike env depth s e e' := by
  refine fun r => settles_congr k fun fuel hfuel => ?_
  obtain ⟨fuel, rfl⟩ := Nat.exists_eq_add_of_le' hfuel
  rw [h]

theorem alike_conjunction (hi : i.KeepsForms) (ho : i.OnlyEvaluates) (e e' : Value)
    (es : List Value) :
    i.Alike env depth s (.list (.symbol "and" :: e :: e' :: es))
      (.list [.symbol "if", e, .list (.symbol "and" :: e' :: es), .bool false]) := by
  have hmore {fuel fuel' : Nat} (hle : fuel ≤ fuel') (e : Value) (t : State) :
      Sooner ((i.evalWithin fuel e env depth).plain t) ((i.evalWithin fuel' e env depth).plain t) :=
    (ho.outlasts hle e env depth t).plain
  intro r
  constructor
  · refine Settles.of_sooner 1 (fun fuel => ?_) fun fuel fuel' hle => hmore hle _ s
    cases fuel with
    | zero => exact .unfinished s _
    | succ fuel =>
        rw [hi.plain_conjunction, hi.plain_choice]
        refine Sooner.bind (hmore (Nat.le_succ fuel) e s) fun v t _ => ?_
        cases v.isTrue with
        | true => exact .same _
        | false => exact .same _
  · refine Settles.of_sooner 0 (fun fuel => ?_) fun fuel fuel' hle => hmore hle _ s
    cases fuel with
    | zero => exact .unfinished s _
    | succ fuel =>
        rw [Nat.add_zero, hi.plain_conjunction, hi.plain_choice]
        refine Sooner.bind (.same _) fun v t _ => ?_
        cases v.isTrue with
        | true => exact hmore (Nat.le_succ fuel) _ t
        | false =>
            cases fuel with
            | zero => exact .unfinished t _
            | succ fuel => exact .same _

structure DerivesForms (i : Interpreter) (env : Env) (depth : Nat) (s : State) : Prop where
  letForm (bindings : List (String × Value)) (e : Value) (es : List Value) :
    i.Alike env depth s (Form.letExpr bindings (e :: es))
      (.list (Form.lambdaExpr ((bindings.map (·.1)).map .symbol) (e :: es) :: bindings.map (·.2)))
  procedure (name : String) (specs : List Value) (e : Value) (es : List Value) :
    i.Alike env depth s (.list (.symbol "define" :: .list (.symbol name :: specs) :: e :: es))
      (.list [.symbol "define", .symbol name, Form.lambdaExpr specs (e :: es)])
  conjunction (e e' : Value) (es : List Value) :
    i.Alike env depth s (.list (.symbol "and" :: e :: e' :: es))
      (.list [.symbol "if", e, .list (.symbol "and" :: e' :: es), .bool false])

theorem derivesForms (hi : i.KeepsForms) (ho : i.OnlyEvaluates) (env : Env) (depth : Nat)
    (s : State) : i.DerivesForms env depth s where
  letForm bindings e es := alike_of_eq 2 fun fuel => hi.plain_letExpr fuel bindings e es env depth
  procedure name specs e es :=
    alike_of_eq 2 fun fuel => hi.plain_define_lambda fuel name specs e es env depth
  conjunction e e' es := alike_conjunction hi ho e e' es

def multiplying : Value :=
  Form.letExpr [("x", .number 2), ("y", .number 3)] [.list [.symbol "*", .symbol "x", .symbol "y"]]

theorem derivesForms_multiplying :
    ((limited 8).KeepsForms ∧ (limited 8).OnlyEvaluates) ∧
      (∃ t, (limited 8).evalWithin 9 multiplying .globals 0 .initial = .ok (.number 6) t) ∧
      (limited 8).DerivesForms .globals 0 .initial := by
  have hkeeps : (limited 8).KeepsForms := fun _ _ h => h
  have honly : (limited 8).OnlyEvaluates := fun _ h => .inl h
  exact ⟨⟨hkeeps, honly⟩, ⟨_, rfl⟩, derivesForms hkeeps honly .globals 0 .initial⟩

end Interpreter

end PassingLisp
