import PassingLisp.Proofs.Depths
import PassingLisp.Proofs.Shapes

namespace PassingLisp

namespace Form

variable {isForm : String → Bool} {specs : List Value}

def Rejects (handler : Handler) (isForm : String → Bool) (operands : List Value) (e : Error) :
    Prop :=
  ∀ ev : Evaluator, ev.isForm = isForm → ∀ env depth s,
    handler ev operands env depth s = .error (.failed e) s

section

variable {name : String} {operands : List Value} {handler : Handler}

theorem Rejects.of_checkBindable (hform : isForm name = true)
    (h : ∀ ev env depth, ∃ f, handler ev operands env depth = ev.checkBindable name >>= f) :
    Rejects handler isForm operands (.formRedefinition name) := by
  intro ev hev env depth s
  obtain ⟨f, hf⟩ := h ev env depth
  have hbind : ev.checkBindable name = Effect.fail (.formRedefinition name) := if_pos (hev ▸ hform)
  rw [hf, hbind]
  rfl

theorem exists_rejects_of_makeProcedure (hspecs : ¬ ParamList isForm specs)
    (h : ∀ ev, ev.isForm = isForm → ∀ env depth, ∃ body f,
      handler ev operands env depth = makeProcedure ev specs body env >>= f) :
    ∃ e, Rejects handler isForm operands e := by
  cases hps : params isForm specs with
  | ok ps => exact absurd (exists_params_iff.mp ⟨ps, hps⟩) hspecs
  | error e =>
      refine ⟨e, fun ev hev env depth s => ?_⟩
      obtain ⟨body, f, hf⟩ := h ev hev env depth
      rw [hf, makeProcedure_of_error ev (hev ▸ hps)]
      rfl

theorem exists_rejects_quote (h : ¬ WellFormed isForm "quote" operands) :
    ∃ e, Rejects quote isForm operands e := by
  rcases operands with _ | ⟨e, _ | ⟨e', es⟩⟩
  · exact ⟨_, fun _ _ _ _ _ => rfl⟩
  · exact absurd (.quote e) h
  · exact ⟨_, fun _ _ _ _ _ => rfl⟩

theorem exists_rejects_assignment (h : ¬ WellFormed isForm "set!" operands) :
    ∃ e, Rejects assignment isForm operands e := by
  rcases operands with _ | ⟨target, _ | ⟨e, _ | ⟨e', es⟩⟩⟩
  · exact ⟨_, fun _ _ _ _ _ => rfl⟩
  · cases target <;> exact ⟨_, fun _ _ _ _ _ => rfl⟩
  · cases target with
    | symbol name =>
        cases hform : isForm name with
        | true => exact ⟨_, .of_checkBindable hform fun _ _ _ => ⟨_, rfl⟩⟩
        | false => exact absurd (.assignment hform e) h
    | _ => exact ⟨_, fun _ _ _ _ _ => rfl⟩
  · cases target <;> exact ⟨_, fun _ _ _ _ _ => rfl⟩

theorem exists_rejects_definition (h : ¬ WellFormed isForm "define" operands) :
    ∃ e, Rejects definition isForm operands e := by
  rcases operands with _ | ⟨target, _ | ⟨e, es⟩⟩
  · exact ⟨_, fun _ _ _ _ _ => rfl⟩
  · rcases target with _ | _ | _ | _ | ⟨_ | ⟨head, specs⟩⟩ | _ | _ | _ | _ | _ | _ | _
    case list.cons => cases head <;> exact ⟨_, fun _ _ _ _ _ => rfl⟩
    all_goals exact ⟨_, fun _ _ _ _ _ => rfl⟩
  cases target with
  | symbol name =>
      cases es with
      | nil =>
          cases hform : isForm name with
          | true => exact ⟨_, .of_checkBindable hform fun _ _ _ => ⟨_, rfl⟩⟩
          | false => exact absurd (.definition hform e) h
      | cons e' es => exact ⟨_, fun _ _ _ _ _ => rfl⟩
  | list signature =>
      rcases signature with _ | ⟨head, specs⟩
      · exact ⟨_, fun _ _ _ _ _ => rfl⟩
      cases head with
      | symbol name =>
          cases hform : isForm name with
          | true => exact ⟨_, .of_checkBindable hform fun _ _ _ => ⟨_, rfl⟩⟩
          | false =>
              have hspecs : ¬ ParamList isForm specs := fun hspecs =>
                h (.procedure hform hspecs e es)
              refine exists_rejects_of_makeProcedure hspecs fun ev hev env depth => ?_
              have hbind : ev.checkBindable name = pure () := if_neg (by simp [hev, hform])
              rw [definition, hbind, pure_bind]
              exact ⟨_, _, rfl⟩
      | _ => exact ⟨_, fun _ _ _ _ _ => rfl⟩
  | _ => cases es <;> exact ⟨_, fun _ _ _ _ _ => rfl⟩

theorem exists_rejects_choice (h : ¬ WellFormed isForm "if" operands) :
    ∃ e, Rejects choice isForm operands e := by
  rcases operands with _ | ⟨test, _ | ⟨e, _ | ⟨otherwise, _ | ⟨e', es⟩⟩⟩⟩
  · exact ⟨_, fun _ _ _ _ _ => rfl⟩
  · exact ⟨_, fun _ _ _ _ _ => rfl⟩
  · exact absurd (.choice test e) h
  · exact absurd (.alternative test e otherwise) h
  · exact ⟨_, fun _ _ _ _ _ => rfl⟩

theorem exists_rejects_lambda (h : ¬ WellFormed isForm "lambda" operands) :
    ∃ e, Rejects lambda isForm operands e := by
  rcases operands with _ | ⟨target, body⟩
  · exact ⟨_, fun _ _ _ _ _ => rfl⟩
  cases target with
  | list specs =>
      rcases body with _ | ⟨e, es⟩
      · exact ⟨_, fun _ _ _ _ _ => rfl⟩
      have hspecs : ¬ ParamList isForm specs := fun hspecs => h (.lambda hspecs e es)
      exact exists_rejects_of_makeProcedure hspecs fun _ _ _ _ => ⟨_, pure, (bind_pure _).symm⟩
  | _ => exact ⟨_, fun _ _ _ _ _ => rfl⟩

theorem exists_rejects_cond (h : ¬ WellFormed isForm "cond" operands) :
    ∃ e, Rejects cond isForm operands e := by
  cases hexpand : condToIf operands with
  | ok e => exact absurd (.cond (exists_condToIf_iff.mp ⟨e, hexpand⟩)) h
  | error e =>
      refine ⟨e, fun ev hev env depth s => ?_⟩
      rw [cond, hexpand]
      rfl

theorem exists_rejects_onSymbol {form : String} (text : String)
    (action : String → Env → Effect Value)
    (hmem : form ∈ ["defined?", "locally-defined?", "make-unbound!", "make-unbound-locally!"])
    (h : ¬ WellFormed isForm form operands) :
    ∃ e, Rejects (onSymbol text action) isForm operands e := by
  rcases operands with _ | ⟨target, _ | ⟨e, es⟩⟩
  · exact ⟨_, fun _ _ _ _ _ => rfl⟩
  · cases target with
    | symbol name => exact absurd (.onSymbol hmem name) h
    | _ => exact ⟨_, fun _ _ _ _ _ => rfl⟩
  · cases target <;> exact ⟨_, fun _ _ _ _ _ => rfl⟩

theorem exists_rejects_consStream (h : ¬ WellFormed isForm "cons-stream" operands) :
    ∃ e, Rejects consStream isForm operands e := by
  rcases operands with _ | ⟨head, _ | ⟨tail, _ | ⟨e, es⟩⟩⟩
  · exact ⟨_, fun _ _ _ _ _ => rfl⟩
  · exact ⟨_, fun _ _ _ _ _ => rfl⟩
  · exact absurd (.consStream head tail) h
  · exact ⟨_, fun _ _ _ _ _ => rfl⟩

theorem exists_rejects_letForm (h : ¬ WellFormed isForm "let" operands) :
    ∃ e, Rejects letForm isForm operands e := by
  rcases operands with _ | ⟨target, body⟩
  · exact ⟨_, fun _ _ _ _ _ => rfl⟩
  cases target with
  | list bindings =>
      rcases body with _ | ⟨e, es⟩
      · exact ⟨_, fun _ _ _ _ _ => rfl⟩
      cases hpairs : letBindings bindings with
      | error err =>
          refine ⟨err, fun ev hev env depth s => ?_⟩
          simp only [letForm, hpairs]
          rfl
      | ok r =>
          obtain ⟨names, inits⟩ := r
          obtain ⟨pairs, rfl, rfl, rfl⟩ := letBindings_eq_ok_iff.mp hpairs
          have hnames : ¬ ParamList isForm ((pairs.map (·.1)).map .symbol) := fun hnames => by
            obtain ⟨hnodup, hform⟩ := paramList_symbols_iff.mp hnames
            exact h (.letForm hnodup hform e es)
          refine exists_rejects_of_makeProcedure hnames fun ev hev env depth => ?_
          simp only [letForm, hpairs, Effect.ofExcept, pure_bind]
          exact ⟨_, _, rfl⟩
  | _ => exact ⟨_, fun _ _ _ _ _ => rfl⟩

theorem exists_rejects (hfind : FormTable.core.find? name = some handler)
    (h : ¬ WellFormed isForm name operands) : ∃ e, Rejects handler isForm operands e := by
  have hmem := FormTable.mem_of_find? hfind
  simp only [FormTable.core, List.mem_cons, List.not_mem_nil, or_false, Prod.mk.injEq] at hmem
  rcases hmem with ⟨rfl, rfl⟩ | ⟨rfl, rfl⟩ | ⟨rfl, rfl⟩ | ⟨rfl, rfl⟩ | ⟨rfl, rfl⟩ | ⟨rfl, rfl⟩ |
    ⟨rfl, rfl⟩ | ⟨rfl, rfl⟩ | ⟨rfl, rfl⟩ | ⟨rfl, rfl⟩ | ⟨rfl, rfl⟩ | ⟨rfl, rfl⟩ | ⟨rfl, rfl⟩ |
    ⟨rfl, rfl⟩ | ⟨rfl, rfl⟩
  · exact exists_rejects_quote h
  · exact exists_rejects_assignment h
  · exact exists_rejects_definition h
  · exact exists_rejects_choice h
  · exact exists_rejects_lambda h
  · exact absurd (.anything (by simp) operands) h
  · exact exists_rejects_cond h
  · exact exists_rejects_onSymbol _ _ (by simp) h
  · exact exists_rejects_onSymbol _ _ (by simp) h
  · exact exists_rejects_onSymbol _ _ (by simp) h
  · exact exists_rejects_onSymbol _ _ (by simp) h
  · exact exists_rejects_consStream h
  · exact absurd (.anything (by simp) operands) h
  · exact absurd (.anything (by simp) operands) h
  · exact exists_rejects_letForm h

end

section

def indifferent (isForm : String → Bool) : Evaluator where
  eval _ _ _ := pure (.bool false)
  isForm := isForm
  builtin? _ := none
  maxDepth := 1

theorem exists_sequence_indifferent (isForm : String → Bool) (es : List Value) (env : Env)
    (depth : Nat) :
    ∃ v, (indifferent isForm).sequence es env depth = pure v := by
  induction es with
  | nil => exact ⟨_, rfl⟩
  | cons e es ih =>
      cases es with
      | nil => exact ⟨_, rfl⟩
      | cons e' es =>
          obtain ⟨v, hv⟩ := ih
          exact ⟨v, (pure_bind _ _).trans hv⟩

theorem exists_untilTruth_indifferent (isForm : String → Bool) (stop : Bool) (last : Value)
    (es : List Value) (env : Env) (depth : Nat) :
    ∃ v, untilTruth stop (indifferent isForm) last es env depth = pure v := by
  induction es generalizing last with
  | nil => exact ⟨_, rfl⟩
  | cons e es ih =>
      cases stop with
      | true =>
          obtain ⟨v, hv⟩ := ih (.bool false)
          exact ⟨v, hv⟩
      | false => exact ⟨_, rfl⟩

theorem evalAll_indifferent (es : List Value) (env : Env) (depth : Nat) :
    (indifferent isForm).evalAll es env depth = pure (es.map fun _ => .bool false) := by
  induction es with
  | nil => rfl
  | cons e es ih =>
      have htail : Effect.inOrder (fun e => (indifferent isForm).eval e env depth) es =
          pure (es.map fun _ => .bool false) := ih
      rw [Evaluator.evalAll, Effect.inOrder, htail]
      rfl

theorem checkBindable_indifferent {name : String} (h : isForm name = false) :
    (indifferent isForm).checkBindable name = pure () :=
  if_neg (by simp [indifferent, h])

theorem exists_letForm_indifferent {bindings : List (String × Value)}
    (hnodup : (bindings.map (·.1)).Nodup) (h : ∀ name ∈ bindings.map (·.1), isForm name = false)
    (e : Value) (es : List Value) (env : Env) (s : State) :
    ∃ v t, letForm (indifferent isForm)
      (.list (bindings.map fun b => .list [.symbol b.1, b.2]) :: e :: es) env 0 s = .ok v t := by
  obtain ⟨ps, hps⟩ := exists_params_iff.mpr (paramList_symbols_iff.mpr ⟨hnodup, h⟩)
  have hplain := eq_plain_of_map_symbol (params_eq_ok_iff.mp hps).1
  have hpairs := letBindings_eq_ok_iff.mpr ⟨bindings, rfl, rfl, rfl⟩
  have hlen : ps.length = ((bindings.map (·.2)).map fun _ => Value.bool false).length := by
    simp [hplain]
  obtain ⟨v, hv⟩ := exists_sequence_indifferent isForm (e :: es)
    (.scope .lexical s.store.frames.size env) 1
  have hcall : (indifferent isForm).callProcedure ps (e :: es) env _ 0 s = _ :=
    (indifferent isForm).callProcedure_eq_inCall Nat.zero_lt_one hlen
  rw [hv] at hcall
  have hmake := makeProcedure_of_params (indifferent isForm) hps (e :: es) env
  refine ⟨v, ?_⟩
  simp only [letForm, hpairs, Effect.ofExcept, pure_bind, hmake, evalAll_indifferent,
    Evaluator.apply]
  exact ⟨_, hcall⟩

theorem exists_ok_of_wellFormed {handler : Handler} {name : String} {operands : List Value}
    (hfind : FormTable.core.find? name = some handler) (h : WellFormed isForm name operands) :
    ∃ env depth s v t, handler (indifferent isForm) operands env depth s = .ok v t := by
  cases h with
  | quote e =>
      cases hfind
      exact ⟨.globals, 0, {}, _, _, rfl⟩
  | @assignment target hform e =>
      cases hfind
      refine ⟨.globals, 0, { store := { frames := #[⟨[(target, .unspecified)]⟩] } }, ?_⟩
      have hslot : ({ frames := #[⟨[(target, .unspecified)]⟩] } : Store).slot .globals target =
          .ok (0, target) := by
        simp [Store.slot, Store.slotBy, Store.holder?, Store.frame, Env.globals, Frame.binds,
          Frame.get?, Frame.find]
      have heval : (indifferent isForm).eval e .globals 0 = pure (.bool false) := rfl
      simp only [assignment, checkBindable_indifferent hform, heval, Effect.bind_apply,
        Effect.pure_apply, Effect.assign, hslot]
      exact ⟨_, _, rfl⟩
  | definition hform e =>
      cases hfind
      refine ⟨.globals, 0, {}, ?_⟩
      rw [definition, checkBindable_indifferent hform]
      exact ⟨_, _, rfl⟩
  | procedure hform hspecs e es =>
      cases hfind
      obtain ⟨ps, hps⟩ := exists_params_iff.mpr hspecs
      refine ⟨.globals, 0, {}, ?_⟩
      rw [definition, checkBindable_indifferent hform,
        makeProcedure_of_params (indifferent isForm) hps]
      exact ⟨_, _, rfl⟩
  | choice test e =>
      cases hfind
      exact ⟨.globals, 0, {}, _, _, rfl⟩
  | alternative test e otherwise =>
      cases hfind
      exact ⟨.globals, 0, {}, _, _, rfl⟩
  | lambda hspecs e es =>
      cases hfind
      obtain ⟨ps, hps⟩ := exists_params_iff.mpr hspecs
      refine ⟨.globals, 0, {}, ?_⟩
      rw [lambda, makeProcedure_of_params (indifferent isForm) hps]
      exact ⟨_, _, rfl⟩
  | cond hclauses =>
      cases hfind
      obtain ⟨e, he⟩ := exists_condToIf_iff.mpr hclauses
      refine ⟨.globals, 0, {}, ?_⟩
      rw [cond, he]
      exact ⟨_, _, rfl⟩
  | onSymbol hmem name =>
      simp only [List.mem_cons, List.not_mem_nil, or_false] at hmem
      rcases hmem with rfl | rfl | rfl | rfl <;> cases hfind <;>
        exact ⟨.globals, 0, {}, _, _, rfl⟩
  | consStream head tail =>
      cases hfind
      exact ⟨.globals, 0, {}, _, _, rfl⟩
  | letForm hnodup hform e es =>
      cases hfind
      exact ⟨.globals, 0, {}, exists_letForm_indifferent hnodup hform e es .globals {}⟩
  | anything hmem operands =>
      simp only [List.mem_cons, List.not_mem_nil, or_false] at hmem
      refine ⟨.globals, 0, {}, ?_⟩
      rcases hmem with rfl | rfl | rfl
      · cases hfind
        obtain ⟨v, hv⟩ := exists_sequence_indifferent isForm operands .globals 0
        rw [begin, hv]
        exact ⟨_, _, rfl⟩
      · cases hfind
        obtain ⟨v, hv⟩ := exists_untilTruth_indifferent isForm false (.bool true)
          operands .globals 0
        rw [conjunction, hv]
        exact ⟨_, _, rfl⟩
      · cases hfind
        obtain ⟨v, hv⟩ := exists_untilTruth_indifferent isForm true (.bool false)
          operands .globals 0
        rw [disjunction, hv]
        exact ⟨_, _, rfl⟩

end

end Form

namespace Interpreter

variable {i : Interpreter}

structure ChecksOperands (i : Interpreter) (name : String) (handler : Handler)
    (operands : List Value) : Prop where
  rejects_iff : (∃ e, Form.Rejects handler i.forms.contains operands e) ↔
    ¬ Form.WellFormed i.forms.contains name operands
  list_eq (eval' : Value → Env → Nat → Effect Value) {e : Error} {head : String} {env : Env}
    {s : State} : Form.Rejects handler i.forms.contains operands e →
    i.forms.invoked? s.store env head = some handler → ∀ depth,
    Evaluator.step i.forms (i.around eval') (.list (.symbol head :: operands)) env depth s =
      .error (.failed (e.locate (.list (.symbol head :: operands)))) s

theorem checksOperands {name : String} {handler : Handler}
    (h : FormTable.core.find? name = some handler) (operands : List Value) :
    i.ChecksOperands name handler operands where
  rejects_iff := by
    constructor
    · rintro ⟨e, hrejects⟩ hformed
      obtain ⟨env, depth, s, v, t, hok⟩ := Form.exists_ok_of_wellFormed h hformed
      rw [hrejects _ rfl env depth s] at hok
      cases hok
    · exact Form.exists_rejects h
  list_eq eval' e head env s hrejects hhead depth := by
    have hlist := Evaluator.evalList_of_invoked i.forms (i.around eval') hhead operands depth
    rw [hrejects _ rfl env depth s] at hlist
    rw [Evaluator.step, Effect.explain, hlist]
    rfl

def repeating : List Value :=
  [.list [.list [.symbol "x", .list [.symbol "display", .number 1]], .list [.symbol "x", .number 2]],
    .symbol "x"]

theorem checksOperands_repeating :
    FormTable.core.find? "let" = some Form.letForm ∧
      Form.Rejects Form.letForm FormTable.core.contains repeating
        (.evaluation "Duplicate parameter name: x") ∧
      ({} : Interpreter).ChecksOperands "let" Form.letForm repeating := by
  have hrejects : Form.Rejects Form.letForm FormTable.core.contains repeating
      (.evaluation "Duplicate parameter name: x") := by
    intro ev hev env depth s
    have hparams : Form.params FormTable.core.contains [.symbol "x", .symbol "x"] =
        .error (.evaluation "Duplicate parameter name: x") := rfl
    have hmake : Form.makeProcedure ev [.symbol "x", .symbol "x"] [.symbol "x"] env =
        Effect.fail (.evaluation "Duplicate parameter name: x") := by
      rw [Form.makeProcedure, hev, hparams]
    simp only [Form.letForm, repeating, Form.letBindings, Effect.ofExcept, pure_bind, hmake]
    rfl
  exact ⟨rfl, hrejects, checksOperands rfl repeating⟩

end Interpreter

end PassingLisp
