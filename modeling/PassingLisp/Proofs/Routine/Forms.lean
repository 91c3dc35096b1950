import PassingLisp.Form.Table
import PassingLisp.Proofs.Routine.Evaluator

namespace PassingLisp

namespace Form

variable {isForm : String → Bool}

theorem paramOf_raisable {spec : Value} {e : Error} (h : paramOf spec = .error e) :
    e.Raisable := by
  unfold paramOf at h
  split at h
  · cases h
  · split at h <;> cases h
    trivial
  · cases h
    trivial
  · cases h
    trivial

theorem paramsAfter_raisable {taken : List String} {specs : List Value} {e : Error}
    (h : paramsAfter isForm taken specs = .error e) : e.Raisable := by
  induction specs generalizing taken with
  | nil => cases h
  | cons spec specs ih =>
      rw [paramsAfter] at h
      cases hp : paramOf spec with
      | error e' =>
          simp only [hp, Except.error.injEq] at h
          exact h ▸ paramOf_raisable hp
      | ok p =>
          simp only [hp] at h
          split at h
          · cases h
            trivial
          · split at h
            · cases h
              trivial
            · cases hr : paramsAfter isForm (p.name :: taken) specs with
              | error e' =>
                  simp only [hr, Except.map, Except.error.injEq] at h
                  exact ih (h ▸ hr)
              | ok ps => simp [hr, Except.map] at h

theorem exists_of_paramsAfter_cons {taken : List String} {spec : Value} {specs : List Value}
    {ps : List Param} (h : paramsAfter isForm taken (spec :: specs) = .ok ps) :
    ∃ p rest, paramOf spec = .ok p ∧ isForm p.name = false ∧ p.name ∉ taken ∧
      paramsAfter isForm (p.name :: taken) specs = .ok rest ∧ ps = p :: rest := by
  rw [paramsAfter] at h
  cases hp : paramOf spec with
  | error e => simp [hp] at h
  | ok p =>
      simp only [hp] at h
      split at h
      · cases h
      · rename_i hform
        split at h
        · cases h
        · rename_i hnew
          cases hr : paramsAfter isForm (p.name :: taken) specs with
          | error e => simp [hr, Except.map] at h
          | ok rest =>
              simp only [hr, Except.map, Except.ok.injEq] at h
              exact ⟨p, rest, rfl, by simpa using hform, hnew, hr, h.symm⟩

theorem isForm_and_exists_spec {taken : List String} {specs : List Value} {ps : List Param}
    (h : paramsAfter isForm taken specs = .ok ps) :
    ∀ p ∈ ps, isForm p.name = false ∧ ∃ spec ∈ specs, paramOf spec = .ok p := by
  induction specs generalizing taken ps with
  | nil =>
      cases h
      simp
  | cons spec specs ih =>
      obtain ⟨q, qs, hq, hform, -, hr, rfl⟩ := exists_of_paramsAfter_cons h
      intro p hmem
      rcases List.mem_cons.mp hmem with rfl | htail
      · exact ⟨hform, spec, List.mem_cons_self, hq⟩
      · obtain ⟨hform', spec', hmem', hspec⟩ := ih hr p htail
        exact ⟨hform', spec', List.mem_cons_of_mem _ hmem', hspec⟩

theorem nodup_of_paramsAfter {taken : List String} {specs : List Value} {ps : List Param}
    (h : paramsAfter isForm taken specs = .ok ps) :
    (ps.map Param.name).Nodup ∧ ∀ name ∈ ps.map Param.name, name ∉ taken := by
  induction specs generalizing taken ps with
  | nil =>
      cases h
      simp
  | cons spec specs ih =>
      obtain ⟨p, rest, -, -, hnew, hr, rfl⟩ := exists_of_paramsAfter_cons h
      obtain ⟨hnodup, hrest⟩ := ih hr
      refine ⟨List.nodup_cons.mpr ⟨fun hmem => hrest _ hmem List.mem_cons_self, hnodup⟩, ?_⟩
      refine List.forall_mem_cons.mpr ⟨hnew, fun name hmem htaken => ?_⟩
      exact hrest name hmem (List.mem_cons_of_mem _ htaken)

theorem isForm_of_paramsAfter {taken : List String} {specs : List Value} {ps : List Param}
    (h : paramsAfter isForm taken specs = .ok ps) : ∀ p ∈ ps, isForm p.name = false :=
  fun p hp => (isForm_and_exists_spec h p hp).1

theorem condToIf_raisable {clauses : List Value} {e : Error} (h : condToIf clauses = .error e) :
    e.Raisable := by
  induction clauses with
  | nil => cases h
  | cons clause rest ih =>
      rw [condToIf.eq_def] at h
      dsimp only at h
      split at h
      · cases h
        trivial
      · cases h
        trivial
      · split at h
        · split at h
          · cases h
          · cases h
            trivial
        · cases hr : condToIf rest with
          | error e' =>
              simp only [hr, Except.map, Except.error.injEq] at h
              exact ih (h ▸ hr)
          | ok alternative => simp [hr, Except.map] at h
      · cases h
        trivial

theorem exists_of_condToIf_cons {clause e : Value} {rest : List Value}
    (h : condToIf (clause :: rest) = .ok e) :
    ∃ test body, clause = .list (test :: body) ∧
      ((test = .symbol "else" ∧ rest = [] ∧ e = sequenceToExpr body) ∨
        (test ≠ .symbol "else" ∧ ∃ alternative, condToIf rest = .ok alternative ∧
          e = .list [.symbol "if", test, sequenceToExpr body, alternative])) := by
  rw [condToIf.eq_def] at h
  dsimp only at h
  split at h
  · cases h
  · cases h
  · rename_i test body _
    refine ⟨test, body, rfl, ?_⟩
    split at h
    · rename_i htest
      split at h
      · rename_i hrest
        cases h
        exact .inl ⟨Value.symbol?_eq_some_iff.mp htest, List.isEmpty_iff.mp hrest, rfl⟩
      · cases h
    · rename_i htest
      cases hr : condToIf rest with
      | error e' => simp [hr, Except.map] at h
      | ok alternative =>
          simp only [hr, Except.map, Except.ok.injEq] at h
          exact .inr ⟨mt Value.symbol?_eq_some_iff.mpr htest, alternative, rfl, h.symm⟩
  · cases h

theorem condToIf_induction {P : Value → Prop} (hfalse : P (.bool false))
    (hseq : ∀ body, (∀ e ∈ body, P e) → P (sequenceToExpr body))
    (hif : ∀ test body alternative, P test → P body → P alternative →
      P (.list [.symbol "if", test, body, alternative])) {clauses : List Value} {e : Value}
    (hc : ∀ es, .list es ∈ clauses → ∀ e ∈ es, P e) (h : condToIf clauses = .ok e) : P e := by
  induction clauses generalizing e with
  | nil =>
      cases h
      exact hfalse
  | cons clause rest ih =>
      obtain ⟨test, body, rfl, hcases⟩ := exists_of_condToIf_cons h
      have hclause := hc (test :: body) List.mem_cons_self
      have hbody := hseq body fun e he => hclause e (List.mem_cons_of_mem _ he)
      rcases hcases with ⟨-, -, rfl⟩ | ⟨-, alternative, hr, rfl⟩
      · exact hbody
      · have hrest := ih (fun es hes => hc es (List.mem_cons_of_mem _ hes)) hr
        exact hif _ _ _ (hclause test List.mem_cons_self) hbody hrest

theorem condToIf_of_parts {P : Value → Prop} (hbegin : P (.symbol "begin"))
    (hif : P (.symbol "if")) (hfalse : P (.bool false))
    (hlist : ∀ {vs}, P (.list vs) ↔ ∀ v ∈ vs, P v) {clauses : List Value} {e : Value}
    (hc : ∀ c ∈ clauses, P c) (h : condToIf clauses = .ok e) : P e := by
  refine condToIf_induction hfalse ?_ ?_ (fun es hes => hlist.mp (hc _ hes)) h
  · intro body hb
    unfold sequenceToExpr
    split
    · exact hb _ (by simp)
    · exact hlist.mpr (List.forall_mem_cons.mpr ⟨hbegin, hb⟩)
  · intro test body alternative ht hb ha
    refine hlist.mpr fun v hv => ?_
    simp only [List.mem_cons, List.not_mem_nil, or_false] at hv
    rcases hv with rfl | rfl | rfl | rfl
    · exact hif
    · exact ht
    · exact hb
    · exact ha

theorem letBindings_raisable {bindings : List Value} {e : Error}
    (h : letBindings bindings = .error e) : e.Raisable := by
  fun_induction letBindings bindings with
  | case1 => cases h
  | case2 name init rest names inits hr ih => cases h
  | case3 name init rest err hr ih =>
      cases h
      exact ih hr
  | case4 => cases h; trivial

theorem exists_binding {bindings names inits : List Value}
    (h : letBindings bindings = .ok (names, inits)) {v : Value} (hv : v ∈ names ∨ v ∈ inits) :
    ∃ elements, Value.list elements ∈ bindings ∧ v ∈ elements := by
  fun_induction letBindings bindings generalizing names inits with
  | case1 =>
      cases h
      simp at hv
  | case2 name init rest names' inits' hr ih =>
      cases h
      have hrest (hm : v ∈ names' ∨ v ∈ inits') :
          ∃ elements, Value.list elements ∈ Value.list [.symbol name, init] :: rest ∧
            v ∈ elements := by
        obtain ⟨elements, hmem, hin⟩ := ih hr hm
        exact ⟨elements, by simp [hmem], hin⟩
      simp only [List.mem_cons] at hv
      rcases hv with (rfl | hm) | (rfl | hm)
      · exact ⟨_, List.mem_cons_self, by simp⟩
      · exact hrest (.inl hm)
      · exact ⟨_, List.mem_cons_self, by simp⟩
      · exact hrest (.inr hm)
  | case3 => cases h
  | case4 => cases h

end Form

namespace Straight

open Form

variable {D : Discipline} {Hosted : Handler → Prop}

theorem failArity (hL : D.Laws) {α : Type} {n expected got : Nat} {Q : α → Nat → Prop}
    (h : expected ≠ got) :
    Straight D Hosted n (fun _ _ => (Effect.fail (.arity expected got) : Effect α)) Q :=
  fail hL h

theorem hosts_quote (hL : D.Laws) : D.HostsStraight Hosted quote := by
  intro n operands env hc he
  rcases operands with _ | ⟨e, _ | ⟨e', es⟩⟩
  · exact failArity hL (by decide)
  · exact pure e (hL.code_result (hc e (by simp)))
  · exact failArity hL (by simp)

theorem hosts_assignment (hL : D.Laws) : D.HostsStraight Hosted assignment := by
  intro n operands env hc he
  rcases operands with _ | ⟨target, _ | ⟨e, _ | ⟨e', es⟩⟩⟩
  · exact failArity hL (by simp)
  · cases target <;> exact failArity hL (by simp)
  · cases target with
    | symbol name =>
        refine .bind (checkBindable hL name) fun _ m hm _ => ?_
        refine .bind (.eval (hL.mono hm (hc e (by simp))) (hL.scope_mono hm he)) fun v k hk hv => ?_
        have he' := hL.scope_mono (Nat.le_trans hm hk) he
        exact .bind (assign name he' hv) fun _ _ _ _ => pure _ (hL.plain trivial)
    | _ => exact fail hL trivial
  · cases target <;> exact failArity hL (by simp)

theorem defineProcedure (hL : D.Laws) {n : Nat} {env : Env} {specs body : List Value}
    (hs : ∀ s ∈ specs, D.Allows .code n s) (hb : ∀ e ∈ body, D.Allows .code n e)
    (he : D.Scope n env) {name : String} (hn : ∀ i, D.Binds i name) :
    Straight D Hosted n (fun ev _ => do
        let f ← Form.makeProcedure ev specs body env
        Effect.define env name f
        Pure.pure (.symbol name)) fun v m => D.Allows .result m v := by
  refine .bind (.makeProcedure hs hb he) fun f m hm hf => ?_
  have he' := hL.scope_mono hm he
  exact .bind (define he' hn hf) fun _ _ _ _ => pure _ (hL.plain trivial)

theorem hosts_definition (hL : D.Laws) : D.HostsStraight Hosted definition := by
  intro n operands env hc he
  rcases operands with _ | ⟨target, _ | ⟨e, es⟩⟩
  · exact failArity hL (by simp)
  · rcases target with _ | _ | _ | _ | ⟨_ | ⟨head, specs⟩⟩ | _ | _ | _ | _ | _ | _ | _
    case list.cons => cases head <;> exact failArity hL (by simp)
    all_goals exact failArity hL (by simp)
  cases target with
  | symbol name =>
      cases es with
      | nil =>
          refine .bind (checkBindable hL name) fun _ m hm hb => ?_
          have he' := hL.scope_mono hm he
          refine .bind (.eval (hL.mono hm (hc e (by simp))) he') fun v k hk hv => ?_
          exact .bind (define (hL.scope_mono hk he') hb hv) fun _ _ _ _ =>
            pure _ (hL.plain trivial)
      | cons e' es => exact failArity hL (by simp)
  | list signature =>
      have hsig := hL.code_elements (hc (.list signature) (by simp))
      cases signature with
      | nil => exact fail hL trivial
      | cons head specs =>
          cases head with
          | symbol name =>
              refine .bind (checkBindable hL name) fun _ m hm hb => ?_
              have hbody (b : Value) (h : b ∈ e :: es) := hc b (List.mem_cons_of_mem _ h)
              exact defineProcedure hL (fun s h => hL.mono hm (hsig s (List.mem_cons_of_mem _ h)))
                (fun b h => hL.mono hm (hbody b h)) (hL.scope_mono hm he) hb
          | _ => exact fail hL trivial
  | _ =>
      cases es with
      | nil => exact fail hL trivial
      | cons e' es => exact failArity hL (by simp)

theorem hosts_choice (hL : D.Laws) : D.HostsStraight Hosted choice := by
  intro n operands env hc he
  rcases operands with _ | ⟨test, _ | ⟨e, _ | ⟨otherwise, _ | ⟨e', es⟩⟩⟩⟩
  · exact failArity hL (by simp)
  · exact failArity hL (by simp)
  · refine .bind (.eval (hc test (by simp)) he) fun v m hm _ => ?_
    cases hv : v.isTrue with
    | true => exact .eval (hL.mono hm (hc e (by simp))) (hL.scope_mono hm he)
    | false => exact pure _ (hL.plain trivial)
  · refine .bind (.eval (hc test (by simp)) he) fun v m hm _ => ?_
    cases hv : v.isTrue with
    | true => exact .eval (hL.mono hm (hc e (by simp))) (hL.scope_mono hm he)
    | false => exact .eval (hL.mono hm (hc otherwise (by simp))) (hL.scope_mono hm he)
  · exact failArity hL (by simp)

theorem hosts_lambda (hL : D.Laws) : D.HostsStraight Hosted lambda := by
  intro n operands env hc he
  rcases operands with _ | ⟨specs, body⟩
  · exact failArity hL (by simp)
  cases specs with
  | list specs =>
      cases body with
      | nil => exact fail hL trivial
      | cons e es =>
          exact .makeProcedure (hL.code_elements (hc (.list specs) (by simp)))
            (fun b h => hc b (List.mem_cons_of_mem _ h)) he
  | _ => exact fail hL trivial

theorem hosts_begin (hL : D.Laws) : D.HostsStraight Hosted begin :=
  fun hc he => sequence hL hc he

theorem hosts_cond (hL : D.Laws) (hx : D.Expands) : D.HostsStraight Hosted Form.cond := by
  intro n operands env hc he
  unfold Form.cond
  cases h : condToIf operands with
  | ok e => exact .eval (hx hc h) he
  | error e => exact fail hL (condToIf_raisable h)

theorem hosts_onSymbol (hL : D.Laws) (form : String) {action : String → Env → Effect Value}
    (h : ∀ name {n env}, D.Scope n env →
      Straight D Hosted n (fun _ _ => action name env) fun v m => D.Allows .result m v) :
    D.HostsStraight Hosted (onSymbol form action) := by
  intro n operands env hc he
  rcases operands with _ | ⟨target, _ | ⟨e, es⟩⟩
  · exact failArity hL (by simp)
  · cases target with
    | symbol name => exact h name he
    | _ => exact fail hL trivial
  · cases target <;> exact failArity hL (by simp)

theorem answerBool (hL : D.Laws) {n : Nat} (f : Store → Bool) :
    Straight D Hosted n (fun _ _ => do
        let b ← Effect.read f
        Pure.pure (.bool b)) fun v m => D.Allows .result m v :=
  .bind (Q := fun _ _ => True) (read f fun _ => trivial) fun _ _ _ _ =>
    pure _ (hL.plain trivial)

theorem hosts_isDefined (hL : D.Laws) : D.HostsStraight Hosted isDefined :=
  hosts_onSymbol hL _ fun _ _ _ _ => answerBool hL _

theorem hosts_isLocallyDefined (hL : D.Laws) : D.HostsStraight Hosted isLocallyDefined :=
  hosts_onSymbol hL _ fun _ _ _ _ => answerBool hL _

theorem hosts_makeUnbound (hL : D.Laws) : D.HostsStraight Hosted makeUnbound := by
  refine hosts_onSymbol hL _ fun name n env he => ?_
  exact .bind (unbind name he) fun _ _ _ _ => pure _ (hL.plain trivial)

theorem hosts_makeUnboundLocally (hL : D.Laws) : D.HostsStraight Hosted makeUnboundLocally := by
  refine hosts_onSymbol hL _ fun name n env he => ?_
  exact .bind (unbindLocally name he) fun _ _ _ _ => pure _ (hL.plain trivial)

theorem hosts_consStream (hL : D.Laws) : D.HostsStraight Hosted consStream := by
  intro n operands env hc he
  rcases operands with _ | ⟨head, _ | ⟨tail, _ | ⟨e, es⟩⟩⟩
  · exact failArity hL (by simp)
  · exact failArity hL (by simp)
  · refine .bind (.eval (hc head (by simp)) he) fun v m hm hv => ?_
    refine .bind freshDelay fun id k hk _ => pure _ (hL.result_list.mpr ?_)
    have hmk := Nat.le_trans hm hk
    have ht := hL.mono hmk (hL.code_text (hc tail (by simp)))
    intro u hu
    simp only [List.mem_cons, List.not_mem_nil, or_false] at hu
    rcases hu with rfl | rfl
    · exact hL.mono hk (hL.result_element hv)
    · exact hL.element_delayed.mpr ⟨ht, hL.scope_mono hmk he⟩
  · exact failArity hL (by simp)

theorem untilTruth (hL : D.Laws) (stop : Bool) {n : Nat} {env : Env} {last : Value}
    {es : List Value} (hv : D.Allows .result n last) (hc : ∀ e ∈ es, D.Allows .code n e)
    (he : D.Scope n env) :
    Straight D Hosted n (fun ev depth => Form.untilTruth stop ev last es env depth)
      fun v m => D.Allows .result m v := by
  induction es generalizing n last with
  | nil => exact pure _ hv
  | cons e es ih =>
      refine .bind (.eval (hc e (by simp)) he) fun v m hm hv => ?_
      by_cases ht : v.isTrue = stop
      · simp only [ht, if_true]
        exact pure _ hv
      · simp only [ht, if_false]
        exact ih hv (fun e' h => hL.mono hm (hc e' (by simp [h]))) (hL.scope_mono hm he)

theorem hosts_conjunction (hL : D.Laws) : D.HostsStraight Hosted conjunction :=
  fun hc he => untilTruth hL false (hL.plain trivial) hc he

theorem hosts_disjunction (hL : D.Laws) : D.HostsStraight Hosted disjunction :=
  fun hc he => untilTruth hL true (hL.plain trivial) hc he

theorem hosts_letForm (hL : D.Laws) : D.HostsStraight Hosted letForm := by
  intro n operands env hc he
  rcases operands with _ | ⟨bindings, body⟩
  · exact fail hL trivial
  cases bindings with
  | list bindings =>
      cases body with
      | nil => exact fail hL trivial
      | cons e es =>
          have hcode := hL.code_elements (hc (.list bindings) (by simp))
          refine .bind (Q := fun r m => m = n ∧ letBindings bindings = .ok r)
            (ofExcept (fun r h => ⟨rfl, h⟩) fun _ h => hL.raises (letBindings_raisable h)) ?_
          rintro ⟨names, inits⟩ m - ⟨rfl, hr⟩
          have hmem (v : Value) (hv : v ∈ names ∨ v ∈ inits) : D.Allows .code m v := by
            obtain ⟨elements, hb, hin⟩ := exists_binding hr hv
            exact hL.code_elements (hcode _ hb) v hin
          have hbody (b : Value) (h : b ∈ e :: es) := hc b (List.mem_cons_of_mem _ h)
          refine .bind (.makeProcedure (fun s h => hmem s (.inl h)) hbody he) fun f k hk hf => ?_
          refine .bind (evalAll hL (fun v h => hL.mono hk (hmem v (.inr h)))
            (hL.scope_mono hk he)) fun values l hl hvs => ?_
          exact apply hL (hL.mono hl hf) (fit_results hL f hvs)
  | _ => exact fail hL trivial

theorem hosts_core (hL : D.Laws) (hx : D.Expands) :
    ∀ entry ∈ FormTable.core.entries, D.HostsStraight Hosted entry.2 := by
  intro entry h
  simp only [FormTable.core, List.mem_cons, List.not_mem_nil, or_false] at h
  rcases h with rfl | rfl | rfl | rfl | rfl | rfl | rfl | rfl | rfl | rfl | rfl | rfl | rfl | rfl |
    rfl
  · exact hosts_quote hL
  · exact hosts_assignment hL
  · exact hosts_definition hL
  · exact hosts_choice hL
  · exact hosts_lambda hL
  · exact hosts_begin hL
  · exact hosts_cond hL hx
  · exact hosts_isDefined hL
  · exact hosts_isLocallyDefined hL
  · exact hosts_makeUnbound hL
  · exact hosts_makeUnboundLocally hL
  · exact hosts_consStream hL
  · exact hosts_conjunction hL
  · exact hosts_disjunction hL
  · exact hosts_letForm hL

end Straight

end PassingLisp
