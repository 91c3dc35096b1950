import PassingLisp.Proofs.Aliases
import PassingLisp.Proofs.Depths

namespace PassingLisp

namespace Store.Trail

variable {σ : Store} {env scope scope' : Env} {name target target' : String}
  {path path' : List (Nat × String)} {a : Nat × String} {v : Value}

theorem unique (h : σ.Trail env name path scope target) (hd : σ.Direct scope target)
    (h' : σ.Trail env name path' scope' target') (hd' : σ.Direct scope' target') :
    path = path' := by
  induction h generalizing path' with
  | nil =>
      cases h' with
      | nil => rfl
      | cons hi hv => exact absurd ⟨_, _, rfl⟩ (hd _ _ hi hv)
  | cons hi hv _ ih =>
      cases h' with
      | nil => exact absurd ⟨_, _, rfl⟩ (hd' _ _ hi hv)
      | cons hi' hv' h' =>
          cases hi.symm.trans hi'
          cases hv.symm.trans hv'
          rw [ih hd h']

theorem exists_rest (h : σ.Trail env name path scope target) (ha : a ∈ path) :
    ∃ next nextScope rest, (σ.frame a.1).get? a.2 = some (.reference next nextScope) ∧
      σ.Trail nextScope next rest scope target ∧ rest.length < path.length := by
  induction h with
  | nil => cases ha
  | cons hi hv h ih =>
      rcases List.mem_cons.mp ha with rfl | ha
      · exact ⟨_, _, _, hv, h, Nat.lt_succ_self _⟩
      · obtain ⟨next, nextScope, rest, hnext, hrest, hlen⟩ := ih ha
        exact ⟨next, nextScope, rest, hnext, hrest, Nat.lt_succ_of_lt hlen⟩

theorem nodup_of_direct (h : σ.Trail env name path scope target) (hd : σ.Direct scope target) :
    path.Nodup := by
  induction h with
  | nil => exact List.nodup_nil
  | cons hi hv h ih =>
      refine List.nodup_cons.mpr ⟨fun hmem => ?_, ih hd⟩
      obtain ⟨next, nextScope, rest, hnext, hrest, hlen⟩ := h.exists_rest hmem
      cases hv.symm.trans hnext
      rw [h.unique hd hrest hd] at hlen
      exact Nat.lt_irrefl _ hlen

theorem direct_of_get? (hv : σ.get? scope target = some v) (hr : ¬ v.IsReference) :
    σ.Direct scope target := by
  intro i u hi hu
  rw [get?_eq hi hu, Option.some.injEq] at hv
  exact hv ▸ hr

theorem resolve_of_get? (h : σ.Trail env name path scope target)
    (hv : σ.get? scope target = some v) (hr : ¬ v.IsReference) : σ.resolve env name = .ok v := by
  have hd := direct_of_get? hv hr
  rw [h.resolve_eq hd (h.length_le_of_nodup (h.nodup_of_direct hd)), found, hv]

theorem get?_of_ne_nil (h : σ.Trail env name path scope target) (hne : path ≠ []) :
    ∃ next nextScope, σ.get? env name = some (.reference next nextScope) := by
  cases h with
  | nil => exact absurd rfl hne
  | cons hi hv => exact ⟨_, _, get?_eq hi hv⟩

end Store.Trail

open Effect

namespace Evaluator

variable (ev : Evaluator)

def misapply (form : String) (operands : List Value) (env : Env) (depth : Nat) : Effect Value := do
  let _ ← ev.evalAll operands env depth
  fail (.unknownProcedure (Value.form form).text)

theorem application_eq_misapply {operator : Value} {form : String} {env : Env} {depth : Nat}
    {s : State} (h : ev.eval operator env depth s = .ok (.form form) s) (operands : List Value) :
    ev.application operator operands env depth s = ev.misapply form operands env depth s := by
  rw [application, bind_apply, h]
  rfl

theorem misapply_ne_ok (form : String) (operands : List Value) (env : Env) (depth : Nat)
    (s : State) (v : Value) (t : State) : ev.misapply form operands env depth s ≠ .ok v t := by
  rw [misapply, bind_apply]
  split <;> simp

end Evaluator

namespace Interpreter

variable {i : Interpreter} {env scope : Env} {s : State} {head form target : String}
  {path : List (Nat × String)}

theorem invoked?_of_aliased (hhead : i.forms.contains head = false)
    (h : s.store.Trail env head path scope target) (hne : path ≠ []) :
    i.forms.invoked? s.store env head = none := by
  obtain ⟨next, nextScope, hget⟩ := h.get?_of_ne_nil hne
  simp only [FormTable.invoked?, FormTable.find?_eq_none hhead, hget]

theorem invoked?_of_direct {handler : Handler} (hhead : i.forms.contains head = false)
    (hv : s.store.get? env head = some (.form form)) (hform : i.forms.find? form = some handler) :
    i.forms.invoked? s.store env head = some handler := by
  simp only [FormTable.invoked?, FormTable.find?_eq_none hhead, hv, hform]

theorem evalWithin_symbol (hhead : i.forms.contains head = false)
    (hv : s.store.resolve env head = .ok (.form form)) (fuel depth : Nat) :
    i.evalWithin (fuel + 1) (.symbol head) env depth s = .ok (.form form) s := by
  have hform : (i.evaluator fuel).isForm head = false := hhead
  rw [evalWithin, ← evaluator, Evaluator.step, Evaluator.evalSymbol, hform]
  simp only [Bool.false_eq_true, if_false, bind_apply, Effect.resolve, hv]
  rfl

theorem evalWithin_of_not_invoked (h : i.forms.invoked? s.store env head = none) (fuel : Nat)
    (operands : List Value) (depth : Nat) :
    i.evalWithin (fuel + 1) (.list (.symbol head :: operands)) env depth s =
      explain (Stop.locate (.list (.symbol head :: operands)))
        ((i.evaluator fuel).application (.symbol head) operands env depth) s := by
  rw [evalWithin, ← evaluator, Evaluator.step, explain, explain,
    Evaluator.evalList_of_not_invoked _ _ h]

structure HeadOfForm (i : Interpreter) (s : State) (env : Env) (head form : String)
    (handler : Handler) (path : List (Nat × String)) : Prop where
  invokes (fuel : Nat) (operands : List Value) (depth : Nat) : path = [] →
    i.evalWithin (fuel + 1) (.list (.symbol head :: operands)) env depth s =
      explain (Stop.locate (.list (.symbol head :: operands)))
        (handler (i.evaluator fuel) operands env depth) s
  misapplies (fuel : Nat) (operands : List Value) (depth : Nat) : path ≠ [] →
    i.evalWithin (fuel + 2) (.list (.symbol head :: operands)) env depth s =
      explain (Stop.locate (.list (.symbol head :: operands)))
        ((i.evaluator (fuel + 1)).misapply form operands env depth) s
  no_value (fuel : Nat) (operands : List Value) (depth : Nat) (v : Value) (t : State) : path ≠ [] →
    i.evalWithin fuel (.list (.symbol head :: operands)) env depth s ≠ .ok v t
  invokes_iff (fuel : Nat) (operands : List Value) (depth : Nat) :
    i.evalWithin (fuel + 2) (.list (.symbol head :: operands)) env depth s =
        explain (Stop.locate (.list (.symbol head :: operands)))
          (handler (i.evaluator (fuel + 1)) operands env depth) s ↔
      path = [] ∨
        explain (Stop.locate (.list (.symbol head :: operands)))
            ((i.evaluator (fuel + 1)).misapply form operands env depth) s =
          explain (Stop.locate (.list (.symbol head :: operands)))
            (handler (i.evaluator (fuel + 1)) operands env depth) s

section

variable (hhead : i.forms.contains head = false) (h : s.store.Trail env head path scope target)
  (hv : s.store.get? scope target = some (.form form))

include hhead h hv

theorem evalWithin_of_aliased (hne : path ≠ []) (fuel : Nat) (operands : List Value)
    (depth : Nat) : i.evalWithin (fuel + 2) (.list (.symbol head :: operands)) env depth s =
      explain (Stop.locate (.list (.symbol head :: operands)))
        ((i.evaluator (fuel + 1)).misapply form operands env depth) s := by
  have hr : ¬ (Value.form form).IsReference := by
    rintro ⟨_, _, h⟩
    cases h
  have hoperator : (i.evaluator (fuel + 1)).eval (.symbol head) env depth s = .ok (.form form) s :=
    evalWithin_symbol hhead (h.resolve_of_get? hv hr) fuel depth
  rw [evalWithin_of_not_invoked (invoked?_of_aliased hhead h hne), explain, explain,
    Evaluator.application_eq_misapply _ hoperator]

theorem evalWithin_of_aliased_ne_ok (hne : path ≠ []) (fuel : Nat) (operands : List Value)
    (depth : Nat) (v : Value) (t : State) :
    i.evalWithin fuel (.list (.symbol head :: operands)) env depth s ≠ .ok v t := by
  intro hok
  cases fuel with
  | zero => cases hok
  | succ fuel =>
      cases fuel with
      | zero =>
          rw [evalWithin_of_not_invoked (invoked?_of_aliased hhead h hne)] at hok
          cases hok
      | succ fuel =>
          rw [evalWithin_of_aliased hhead h hv hne, explain] at hok
          split at hok
          · next ha =>
              exact (i.evaluator (fuel + 1)).misapply_ne_ok form operands env depth s _ _ ha
          · cases hok

theorem headOfForm {handler : Handler} (hform : i.forms.find? form = some handler) :
    i.HeadOfForm s env head form handler path := by
  have hinvokes (fuel : Nat) (operands : List Value) (depth : Nat) (hnil : path = []) :
      i.evalWithin (fuel + 1) (.list (.symbol head :: operands)) env depth s =
        explain (Stop.locate (.list (.symbol head :: operands)))
          (handler (i.evaluator fuel) operands env depth) s := by
    subst hnil
    cases h
    exact evalWithin_of_invoked (invoked?_of_direct hhead hv hform) fuel operands depth
  refine ⟨hinvokes, fun fuel operands depth hne => evalWithin_of_aliased hhead h hv hne fuel
    operands depth, fun fuel operands depth v t hne => evalWithin_of_aliased_ne_ok hhead h hv hne
    fuel operands depth v t, fun fuel operands depth => ?_⟩
  by_cases hnil : path = []
  · simp only [hnil, true_or, iff_true]
    exact hinvokes (fuel + 1) operands depth hnil
  · rw [evalWithin_of_aliased hhead h hv hnil]
    simp only [hnil, false_or]

end

def lending : State where
  store := { frames := #[⟨[("my-if", .form "if")]⟩, ⟨[("r", .reference "my-if" .globals)]⟩] }
  stack := .scope .dynamic 1 .globals

def lendingScope : Env := .scope .lexical 1 .globals

theorem trail_lending :
    lending.store.Trail lendingScope "r" [(1, "r")] .globals "my-if" :=
  .cons rfl rfl (.nil _ _)

theorem headOfForm_lending :
    ({} : Interpreter).forms.contains "r" = false ∧
      lending.store.Trail lendingScope "r" [(1, "r")] .globals "my-if" ∧
      lending.store.get? .globals "my-if" = some (.form "if") ∧
      ({} : Interpreter).forms.find? "if" = some Form.choice ∧
      ({} : Interpreter).HeadOfForm lending lendingScope "r" "if" Form.choice [(1, "r")] :=
  ⟨by decide, trail_lending, rfl, rfl, headOfForm (by decide) trail_lending rfl rfl⟩

theorem lending_misapplies :
    lending.store.Trail lendingScope "r" [(1, "r")] .globals "my-if" ∧
      lending.store.get? .globals "my-if" = some (.form "if") ∧
      ∀ fuel,
        Form.choice (({} : Interpreter).evaluator (fuel + 1)) [.bool false, .number 1, .number 2]
            lendingScope 0 lending = .ok (.number 2) lending ∧
          ({} : Interpreter).evalWithin (fuel + 2)
              (.list [.symbol "r", .bool false, .number 1, .number 2]) lendingScope 0 lending =
            .error (.failed (.unknownProcedure "#<special-form:if>")) lending :=
  ⟨trail_lending, rfl, fun _ => ⟨rfl, rfl⟩⟩

end Interpreter

end PassingLisp
