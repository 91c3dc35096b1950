import PassingLisp.Proofs.Calls
import PassingLisp.Proofs.Termination

namespace PassingLisp

open Discipline

namespace Error

def depthLimitText (maxDepth : Nat) : String :=
  "Evaluation depth limit exceeded (max: " ++ toString maxDepth ++ ")"

def depthLimit (maxDepth : Nat) : Option Value → Error
  | none => evaluation (depthLimitText maxDepth)
  | some expr =>
      evaluation (depthLimitText maxDepth ++ contextMark ++ "while evaluating: " ++ expr.text)

theorem newline_not_mem_depthLimitText (maxDepth : Nat) :
    '\n' ∉ (depthLimitText maxDepth).toList := by
  have hbefore : '\n' ∉ "Evaluation depth limit exceeded (max: ".toList := by decide
  have hafter : '\n' ∉ ")".toList := by decide
  have hdigits : '\n' ∉ (toString maxDepth).toList := by
    rw [Nat.toString_eq_repr, Nat.toList_repr]
    intro h
    cases Nat.isDigit_of_mem_toDigits (by omega) (by omega) h
  have happend (a b c : String) : (a ++ b ++ c).toList = a.toList ++ b.toList ++ c.toList := by
    simp only [String.toList_append]
  intro h
  unfold depthLimitText at h
  rw [happend, List.mem_append, List.mem_append] at h
  exact h.elim (fun h => h.elim hbefore hdigits) hafter

theorem located_of_newline_not_mem {text : String} (h : '\n' ∉ text.toList) (expr : Value) :
    located expr text = text ++ contextMark ++ "while evaluating: " ++ expr.text := by
  refine if_neg fun hmarked => h ?_
  exact (Text.holds_iff.mp hmarked).subset (by decide)

theorem located_located (text : String) (named expr : Value) :
    located expr (text ++ contextMark ++ "while evaluating: " ++ named.text) =
      text ++ contextMark ++ "while evaluating: " ++ named.text := by
  refine if_pos (Text.holds_iff.mpr ?_)
  refine ⟨text.toList, "while evaluating: ".toList ++ named.text.toList, ?_⟩
  simp only [String.toList_append, List.append_assoc]

theorem locate_depthLimit (maxDepth : Nat) (place : Option Value) (expr : Value) :
    (depthLimit maxDepth place).locate expr = depthLimit maxDepth (some (place.getD expr)) := by
  cases place with
  | none =>
      exact congrArg evaluation
        (located_of_newline_not_mem (newline_not_mem_depthLimitText maxDepth) expr)
  | some named => exact congrArg evaluation (located_located (depthLimitText maxDepth) named expr)

end Error

inductive Near (m m' k : Nat) {α : Type} : Effect.Result α → Effect.Result α → Prop where
  | same (r : Effect.Result α) : Near m m' k r r
  | tooDeep {r : Effect.Result α} (place : Option Value) (s : State)
      (h : m' = m + k → r = .error (.failed (.depthLimit m' place)) s) :
      Near m m' k (.error (.failed (.depthLimit m place)) s) r

namespace Near

variable {m m' k : Nat} {α β : Type} {s : State}

theorem bind {x x' : Effect α} {f f' : α → Effect β} (hx : Near m m' k (x s) (x' s))
    (hf : ∀ a t, x s = .ok a t → Near m m' k (f a t) (f' a t)) :
    Near m m' k ((x >>= f) s) ((x' >>= f') s) := by
  simp only [Effect.bind_apply]
  generalize x s = r at hx hf
  generalize x' s = r' at hx
  cases hx with
  | same =>
      cases r with
      | ok a t => exact hf a t rfl
      | error e t => exact .same _
  | tooDeep place t h => exact .tooDeep place t fun hk => by rw [h hk]

theorem explain {x x' : Effect α} (expr : Value) (hx : Near m m' k (x s) (x' s)) :
    Near m m' k (Effect.explain (Stop.locate expr) x s)
      (Effect.explain (Stop.locate expr) x' s) := by
  unfold Effect.explain
  generalize x s = r at hx
  generalize x' s = r' at hx
  cases hx with
  | same => exact .same _
  | tooDeep place t h =>
      simp only [Stop.locate, Error.locate_depthLimit]
      exact .tooDeep _ t fun hk => by simp only [h hk, Error.locate_depthLimit]

theorem inCall {x x' : Effect α} (scope : Env)
    (hx : ∀ t, Near m m' k (x t) (x' t)) :
    Near m m' k (Effect.inCall scope x s) (Effect.inCall scope x' s) := by
  have hx := hx { s with stack := s.stack.push scope }
  unfold Effect.inCall
  generalize x _ = r at hx
  generalize x' _ = r' at hx
  cases hx with
  | same => exact .same _
  | tooDeep place t h => exact .tooDeep place _ fun hk => by rw [h hk]

end Near

namespace Interpreter

variable {m m' k fuel depth : Nat} {s : State} {e : Value} {env : Env} {r r' : Effect.Result Value}

theorem governs_anything : anything.Governs (limited m) :=
  OnlyEvaluates.governs fun _ h => .inl h

theorem descend_eq_fail (h : m ≤ depth) :
    ((limited m).evaluator fuel).descend depth = Effect.fail (.depthLimit m none) :=
  ((limited m).evaluator fuel).descend_of_le h

theorem near_descend (hm : m + k ≤ m') {α : Type} {f f' : Nat → Effect α}
    (hf : Near m m' k (f (depth + 1) s) (f' (depth + 1 + k) s)) :
    Near m m' k ((((limited m).evaluator fuel).descend depth >>= f) s)
      ((((limited m').evaluator fuel).descend (depth + k) >>= f') s) := by
  rcases Nat.lt_or_ge depth m with hd | hd
  · have hd' : depth + k < m' := by omega
    rw [((limited m).evaluator fuel).descend_of_lt hd,
      ((limited m').evaluator fuel).descend_of_lt hd', pure_bind, pure_bind,
      Nat.add_right_comm depth k 1]
    exact hf
  · rw [descend_eq_fail hd]
    refine .tooDeep none s fun hk => ?_
    rw [descend_eq_fail (show m' ≤ depth + k by omega)]
    rfl

def NearWithin (m m' k fuel : Nat) : Prop :=
  ∀ e env depth s, Near m m' k ((limited m).evalWithin fuel e env depth s)
    ((limited m').evalWithin fuel e env (depth + k) s)

theorem NearWithin.sequence (h : NearWithin m m' k fuel) (es : List Value) (env : Env)
    (depth : Nat) (s : State) :
    Near m m' k (((limited m).evaluator fuel).sequence es env depth s)
      (((limited m').evaluator fuel).sequence es env (depth + k) s) := by
  induction es generalizing s with
  | nil => exact .same _
  | cons e es ih =>
      cases es with
      | nil => exact h e env depth s
      | cons e' es => exact (h e env depth s).bind fun _ t _ => ih t

theorem NearWithin.call (h : NearWithin m m' k fuel) (hm : m + k ≤ m') (params : List Param)
    (body : List Value) (env : Env) (args : List Value) (depth : Nat) (s : State) :
    Near m m' k (((limited m).evaluator fuel).callProcedure params body env args depth s)
      (((limited m').evaluator fuel).callProcedure params body env args (depth + k) s) := by
  refine near_descend hm (Near.bind (.same _) fun scope t _ => ?_)
  exact Near.inCall scope fun u => h.sequence body scope (depth + 1) u

theorem NearWithin.straight (h : NearWithin m m' k fuel) (hm : m + k ≤ m')
    {α : Type} {n : Nat} {x : Evaluator → Nat → Effect α} {Q : α → Nat → Prop}
    (hx : Straight anything (· = Form.amongCalls) n x Q) (depth : Nat) {s : State}
    (hn : s.store.frames.size = n) :
    Near m m' k (x ((limited m).evaluator fuel) depth s)
      (x ((limited m').evaluator fuel) (depth + k) s) := by
  induction hx generalizing s with
  | primitive => exact .same _
  | @bind α β n x f Q R hx hf ihx ihf =>
      subst hn
      have hosted : ∀ handler, handler = Form.amongCalls → anything.Hosts handler := by
        rintro _ rfl
        exact Routine.hosts_amongCalls laws_anything
      refine (ihx rfl).bind fun a t hxs => ?_
      have hends : anything.Ends s Q (x ((limited m).evaluator fuel) depth s) :=
        governs_anything.ends_routine fuel (hx.routine hosted) (good_anything s)
      rw [hxs] at hends
      exact ihf a _ hends.1.size_le hends.2 rfl
  | explain expr _ ih => exact (ih hn).explain expr
  | eval => exact h _ _ depth s
  | force => exact near_descend hm (h _ _ (depth + 1) s)
  | call => exact h.call hm _ _ _ _ depth s
  | ifForm name _ _ ihx ihy =>
      cases hf : FormTable.core.contains name with
      | true =>
          have hform (j : Nat) : ((limited j).evaluator fuel).isForm name = true := hf
          simp only [hform, if_true]
          exact ihx hn
      | false =>
          have hform (j : Nat) : ((limited j).evaluator fuel).isForm name = false := hf
          simp only [hform]
          exact ihy (fun _ => trivial) hn
  | withBuiltin index _ _ ihx ihy =>
      cases hb : (Builtin.core.map (·.2)).toArray[index]? with
      | some b =>
          have hbuiltin (j : Nat) : ((limited j).evaluator fuel).builtin? index = some b := hb
          simp only [hbuiltin]
          exact ihx b (replies_anything b) hn
      | none =>
          have hbuiltin (j : Nat) : ((limited j).evaluator fuel).builtin? index = none := hb
          simp only [hbuiltin]
          exact ihy hn
  | makeProcedure =>
      have hforms (j : Nat) : ((limited j).evaluator fuel).isForm = FormTable.core.contains := rfl
      simp only [Form.makeProcedure, hforms]
      exact .same _
  | @invoke n handler operands env hh =>
      subst hh
      exact Near.bind (.same _) fun scope t _ => h.sequence operands scope depth t

theorem nearWithin (hm : m + k ≤ m') (fuel : Nat) : NearWithin m m' k fuel := by
  induction fuel with
  | zero => exact fun e env depth s => .same _
  | succ fuel ih =>
      intro e env depth s
      have hcore : ∀ entry ∈ FormTable.core.entries,
          anything.HostsStraight (· = Form.amongCalls) entry.2 :=
        Straight.hosts_core laws_anything expands_anything
      have hamong : anything.AmongCalls (· = Form.amongCalls) := fun _ _ _ _ => rfl
      exact ih.straight hm (Straight.step laws_anything @hamong hcore trivial trivial) depth rfl

def Yields (i : Interpreter) (e : Value) (env : Env) (depth : Nat) (s : State)
    (r : Effect.Result Value) : Prop :=
  Effect.Finished r ∧ ∃ limit, ∀ fuel, limit ≤ fuel → i.evalWithin fuel e env depth s = r

def atLimit (m : Nat) (place : Option Value) (s : State) : Effect.Result Value :=
  .error (.failed (.depthLimit m place)) s

theorem near_of_yields (hm : m + k ≤ m') (h : (limited m).Yields e env depth s r)
    (h' : (limited m').Yields e env (depth + k) s r') : Near m m' k r r' := by
  obtain ⟨-, limit, hr⟩ := h
  obtain ⟨-, limit', hr'⟩ := h'
  have hnear := nearWithin hm (max limit limit') e env depth s
  rwa [hr _ (Nat.le_max_left ..), hr' _ (Nat.le_max_right ..)] at hnear

def BudgetDecides (s : State) : Prop :=
  ∀ (stack : Env) (e : Value) (env : Env) (depth m : Nat), stack.Below s.store.frames.size →
    e.Readable → env.Below s.store.frames.size →
    ∃ r, (limited m).Yields e env depth { s with stack := stack } r ∧
      ((∀ place t, r ≠ atLimit m place t) →
        ∀ m', m ≤ m' → (limited m').Yields e env depth { s with stack := stack } r) ∧
      ∀ k, (limited (m + k)).Yields e env (depth + k) { s with stack := stack } r ∨
        ∃ place t, r = atLimit m place t ∧
          (limited (m + k)).Yields e env (depth + k) { s with stack := stack }
            (atLimit (m + k) place t)

theorem exists_yields (hg : reading.Good s) (he : e.Readable)
    (henv : env.Below s.store.frames.size) (m depth : Nat) :
    ∃ r, (limited m).Yields e env depth s r := by
  obtain ⟨limit, r, hfin, -, hr⟩ :=
    terminates_of_readable (Nat.le_add_left m depth) he env s hg henv
  exact ⟨r, hfin, limit, hr⟩

theorem budgetDecides_of_good (hg : reading.Good s) : BudgetDecides s := by
  intro stack e env depth m hstack he henv
  have hg' : reading.Good { s with stack := stack } := ⟨hg.live, hstack, hg.slots⟩
  obtain ⟨r, hr⟩ := exists_yields hg' he henv m depth
  refine ⟨r, hr, fun hlimit m' hm => ?_, fun k => ?_⟩
  · obtain ⟨r', hr'⟩ := exists_yields hg' he henv m' depth
    cases near_of_yields (k := 0) hm hr hr' with
    | same => exact hr'
    | tooDeep place t => exact absurd rfl (hlimit place t)
  · obtain ⟨r', hr'⟩ := exists_yields hg' he henv (m + k) (depth + k)
    cases near_of_yields (Nat.le_refl _) hr hr' with
    | same => exact .inl hr'
    | tooDeep place t h =>
        rw [h rfl] at hr'
        exact .inr ⟨place, t, rfl, hr'⟩

theorem budgetDecides_of_reached {n : Nat} (h : (limited n).Reached s) (he : e.Readable)
    (fuel : Nat) :
    BudgetDecides s ∧
      (limited n).Throughout (fun _ _ _ t _ => BudgetDecides t) fuel e .globals 0 s := by
  have hg := h.good
  refine ⟨budgetDecides_of_good hg,
    throughout_of_governs governs_limited ?_ fuel hg he (below_globals hg)⟩
  intro e' env' depth' t r hgt _ _ _
  exact budgetDecides_of_good hgt

theorem budgetDecides_aliasing :
    (limited 8).Reached .initial ∧ aliasing.Readable ∧
      (BudgetDecides .initial ∧
        (limited 8).Throughout (fun _ _ _ t _ => BudgetDecides t) ample aliasing .globals 0
          .initial) :=
  ⟨.initial, readable_aliasing, budgetDecides_of_reached .initial readable_aliasing ample⟩

end Interpreter

end PassingLisp
