import PassingLisp.Builtin.Registry
import PassingLisp.Proofs.Discipline

namespace PassingLisp

def FailsWell {α : Type} (r : Except Error α) : Prop :=
  ∀ e, r = .error e → e.Raisable

namespace FailsWell

variable {α β : Type}

theorem ok (a : α) : FailsWell (.ok a) :=
  fun _ h => nomatch h

theorem error {e : Error} (h : e.Raisable) : FailsWell (.error e : Except Error α) := by
  intro e' he
  cases he
  exact h

theorem map {r : Except Error α} (h : FailsWell r) (f : α → β) : FailsWell (r.map f) := by
  cases r with
  | ok a => exact ok (f a)
  | error e => exact error (h e rfl)

end FailsWell

theorem Value.failsWell_toNumber (v : Value) : FailsWell v.toNumber := by
  cases v with
  | number n => exact .ok n
  | _ => exact .error trivial

namespace Arithmetic

theorem failsWell_checked (operation : String) (n : Int) : FailsWell (checked operation n) := by
  unfold checked
  split
  · exact .ok _
  · exact .error trivial

theorem failsWell_accumulate (operation : String) (op : Int → Int → Int) (acc : Int64)
    (vs : List Value) : FailsWell (accumulate operation op acc vs) := by
  induction vs generalizing acc with
  | nil => exact .ok acc
  | cons v vs ih =>
      rw [accumulate]
      cases hv : v.toNumber with
      | error e => exact .error (v.failsWell_toNumber e hv)
      | ok n =>
          dsimp only
          cases hc : checked operation (op acc.toInt n.toInt) with
          | error e => exact .error (failsWell_checked _ _ e hc)
          | ok m => exact ih m

theorem failsWell_select (better : Int64 → Int64 → Int64) (best : Int64) (vs : List Value) :
    FailsWell (select better best vs) := by
  induction vs generalizing best with
  | nil => exact .ok best
  | cons v vs ih =>
      rw [select]
      cases hv : v.toNumber with
      | error e => exact .error (v.failsWell_toNumber e hv)
      | ok n => exact ih _

theorem failsWell_toNumbers (vs : List Value) : FailsWell (toNumbers vs) := by
  induction vs with
  | nil => exact .ok []
  | cons v vs ih =>
      rw [toNumbers]
      cases hv : v.toNumber with
      | error e => exact .error (v.failsWell_toNumber e hv)
      | ok n => exact ih.map _

end Arithmetic

theorem Lists.failsWell_appendStrings (vs : List Value) : FailsWell (appendStrings vs) := by
  induction vs with
  | nil => exact .ok ""
  | cons v vs ih =>
      cases v with
      | string s => exact ih.map _
      | _ => exact .error trivial

namespace Discipline

variable {D : Discipline} {n : Nat}

theorem answers_result (hL : D.Laws) {v : Value} (h : D.Allows .result n v) :
    D.Answers n (.ok v) :=
  hL.result_element h

theorem answers_error (hL : D.Laws) {e : Error} (h : e.Raisable) : D.Answers n (.error e) :=
  hL.raises h

theorem answers_map (hL : D.Laws) {α : Type} {r : Except Error α} (h : FailsWell r)
    {f : α → Value} (hf : ∀ a, (f a).Plain) : D.Answers n (r.map f) := by
  cases r with
  | ok a => exact answers_result hL (hL.plain (hf a))
  | error e => exact answers_error hL (h e rfl)

theorem answers_subtract (hL : D.Laws) (vs : List Value) :
    D.Answers n (Arithmetic.subtract vs) := by
  cases vs with
  | nil => exact answers_error hL (Nat.noConfusion : 1 ≠ 0)
  | cons v vs =>
      simp only [Arithmetic.subtract]
      cases hv : v.toNumber with
      | error e => exact answers_error hL (v.failsWell_toNumber e hv)
      | ok m =>
          cases vs with
          | nil => exact answers_map hL (Arithmetic.failsWell_checked _ _) fun _ => by trivial
          | cons =>
              exact answers_map hL (Arithmetic.failsWell_accumulate _ _ _ _) fun _ => by trivial

theorem answers_selectFrom (hL : D.Laws) (better : Int64 → Int64 → Int64) (vs : List Value) :
    D.Answers n (Arithmetic.selectFrom better vs) := by
  cases vs with
  | nil => exact answers_error hL (Nat.noConfusion : 1 ≠ 0)
  | cons v vs =>
      simp only [Arithmetic.selectFrom]
      cases hv : v.toNumber with
      | error e => exact answers_error hL (v.failsWell_toNumber e hv)
      | ok m => exact answers_map hL (Arithmetic.failsWell_select _ _ _) fun _ => by trivial

theorem answers_car (hL : D.Laws) {v : Value} (hv : D.Allows .result n v) :
    D.Answers n (Lists.car v) := by
  cases v with
  | list vs =>
      cases vs with
      | nil => exact answers_error hL trivial
      | cons first rest => exact hL.result_list.mp hv first List.mem_cons_self
  | _ => exact answers_error hL trivial

theorem answers_cdr (hL : D.Laws) {v : Value} (hv : D.Allows .result n v) :
    D.Answers n (Lists.cdr v) := by
  cases v with
  | list vs =>
      cases vs with
      | nil => exact answers_error hL trivial
      | cons first rest =>
          have hvs := hL.result_list.mp hv
          exact answers_result hL (hL.result_list.mpr fun u hu => hvs u (List.mem_cons_of_mem _ hu))
  | _ => exact answers_error hL trivial

theorem answers_cons (hL : D.Laws) {first rest : Value} (hf : D.Allows .result n first)
    (hr : D.Allows .result n rest) : D.Answers n (Lists.cons first rest) := by
  cases rest with
  | list vs =>
      refine answers_result hL (hL.result_list.mpr fun u hu => ?_)
      rcases List.mem_cons.mp hu with rfl | hmem
      · exact hL.result_element hf
      · exact hL.result_list.mp hr u hmem
  | _ => exact answers_error hL trivial

theorem answers_streamTail (hL : D.Laws) {v : Value} (hv : D.Allows .result n v) :
    D.Answers n (Lists.streamTail v) := by
  cases v with
  | list vs =>
      rcases vs with _ | ⟨head, _ | ⟨tail, _ | ⟨u, us⟩⟩⟩
      · exact answers_error hL trivial
      · exact answers_error hL trivial
      · exact hL.result_list.mp hv tail (by simp)
      · exact answers_error hL trivial
  | _ => exact answers_error hL trivial

theorem replies (hL : D.Laws) {arity : Arity} {run : List Value → Reply}
    (h : ∀ {n args}, (∀ a ∈ args, D.Allows .result n a) → D.Answers n (run args).result) :
    D.Replies ⟨arity, run⟩ := by
  intro n args ha
  unfold Builtin.call Arity.check
  cases hc : arity.accepts args.length with
  | true => exact h ha
  | false => exact answers_error hL (Arity.bound_ne_of_not_accepts hc)

theorem replies_unary (hL : D.Laws) {arity : Arity} {f : Value → Except Error Value}
    (h : ∀ {n v}, D.Allows .result n v → D.Answers n (f v)) :
    D.Replies ⟨arity, Builtin.unary f⟩ := by
  refine replies hL fun {n args} ha => ?_
  cases args with
  | nil => exact answers_error hL (Nat.noConfusion : 1 ≠ 0)
  | cons v vs => exact h (ha v List.mem_cons_self)

theorem replies_binary (hL : D.Laws) {arity : Arity} {f : Value → Value → Except Error Value}
    (h : ∀ {n u v}, D.Allows .result n u → D.Allows .result n v → D.Answers n (f u v)) :
    D.Replies ⟨arity, Builtin.binary f⟩ := by
  refine replies hL fun {n args} ha => ?_
  rcases args with _ | ⟨u, _ | ⟨v, vs⟩⟩
  · exact answers_error hL (by decide : 2 ≠ 0)
  · exact answers_error hL (by decide : 2 ≠ 1)
  · exact h (ha u (by simp)) (ha v (by simp))

theorem replies_comparison (hL : D.Laws) (rel : Int64 → Int64 → Bool) :
    D.Replies (Builtin.comparison rel) :=
  replies hL fun _ => answers_map hL (Arithmetic.failsWell_toNumbers _) fun _ => by trivial

theorem replies_predicate (hL : D.Laws) {arity : Arity} (p : Value → Bool) :
    D.Replies ⟨arity, Builtin.unary fun v => .ok (.bool (p v))⟩ :=
  replies_unary hL fun _ => answers_result hL (hL.plain (by trivial))

theorem replies_core (hL : D.Laws) : ∀ entry ∈ Builtin.core, D.Replies entry.2 := by
  intro entry h
  simp only [Builtin.core, List.mem_cons, List.not_mem_nil, or_false] at h
  rcases h with rfl | rfl | rfl | rfl | rfl | rfl | rfl | rfl | rfl | rfl | rfl | rfl | rfl | rfl |
    rfl | rfl | rfl | rfl | rfl | rfl | rfl | rfl | rfl | rfl | rfl | rfl
  · exact replies hL fun _ =>
      answers_map hL (Arithmetic.failsWell_accumulate _ _ _ _) fun _ => by trivial
  · exact replies hL fun _ => answers_subtract hL _
  · exact replies hL fun _ =>
      answers_map hL (Arithmetic.failsWell_accumulate _ _ _ _) fun _ => by trivial
  · exact replies_comparison hL _
  · exact replies_comparison hL _
  · exact replies_comparison hL _
  · exact replies_comparison hL _
  · exact replies_comparison hL _
  · exact replies hL fun _ => answers_selectFrom hL _ _
  · exact replies hL fun _ => answers_selectFrom hL _ _
  · exact replies_binary hL fun _ _ => answers_result hL (hL.plain (by trivial))
  · exact replies_predicate hL fun v => !v.isTrue
  · exact replies_unary hL (answers_car hL)
  · exact replies_unary hL (answers_cdr hL)
  · exact replies_binary hL (answers_cons hL)
  · refine replies hL fun ha => answers_result hL (hL.result_list.mpr fun v hv => ?_)
    exact hL.result_element (ha v hv)
  · exact replies_predicate hL Lists.isNull
  · exact replies_predicate hL Lists.isPair
  · exact replies hL fun _ => answers_map hL (Lists.failsWell_appendStrings _) fun _ => by trivial
  · exact replies hL fun _ => answers_result hL (hL.plain (by trivial))
  · exact replies hL fun _ => answers_result hL (hL.plain (by trivial))
  · exact replies hL fun _ => answers_error hL (by trivial)
  · exact replies hL fun _ => answers_error hL (by trivial)
  · exact replies_unary hL (answers_car hL)
  · exact replies_unary hL (answers_streamTail hL)
  · exact replies_predicate hL Lists.isNull

end Discipline

end PassingLisp
