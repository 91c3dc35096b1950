import PassingLisp.Proofs.Throughout

namespace PassingLisp

namespace Effect.Unaware

variable {α β : Type} {s : State} {x : Effect α}

theorem bind {f : α → Effect β} (hx : Unaware s x) (hf : ∀ a t, x s = .ok a t → Unaware t (f a)) :
    Unaware s (x >>= f) := by
  intro stack
  simp only [bind_apply, hx stack]
  cases hs : x s with
  | ok a t => exact hf a t hs stack
  | error e t => rfl

theorem explain (f : Stop → Stop) (hx : Unaware s x) : Unaware s (Effect.explain f x) := by
  intro stack
  simp only [Effect.explain, hx stack]
  cases x s <;> rfl

theorem inCall {link : Link} {frame : Nat} {parent : Env}
    (hx : Unaware { s with stack := .scope .dynamic frame s.stack } x) :
    Unaware s (Effect.inCall (.scope link frame parent) x) := by
  intro stack
  have hbody : x { s with stack := .scope .dynamic frame stack } =
      leave (.scope .dynamic frame stack) (x { s with stack := .scope .dynamic frame s.stack }) :=
    hx (.scope .dynamic frame stack)
  simp only [Effect.inCall, Env.push, hbody]
  cases x { s with stack := .scope .dynamic frame s.stack } <;> rfl

theorem of_stack {found : Env} (hx : Unaware { s with stack := found } x) : Unaware s x := by
  intro stack
  have hstack : x { s with stack := stack } = leave stack (x { s with stack := found }) := hx stack
  have hs : x s = leave s.stack (x { s with stack := found }) := hx s.stack
  rw [hstack, hs]
  cases x { s with stack := found } <;> rfl

end Effect.Unaware

open Effect (Unaware)

namespace Evaluator

variable (ev : Evaluator) {params : List Param} {body : List Value} {env : Env} {args : List Value}
  {depth : Nat} {s : State}

theorem unaware_descend (depth : Nat) (s : State) : Unaware s (ev.descend depth) := by
  intro stack
  unfold descend
  split <;> rfl

theorem eq_of_descend {k : Nat} {t : State} (h : ev.descend depth s = .ok k t) :
    k = depth + 1 ∧ t = s := by
  unfold descend at h
  split at h
  · cases h
  · cases h
    exact ⟨rfl, rfl⟩

theorem unaware_extend (env : Env) (names : List String) (values : List Value) (s : State) :
    Unaware s (Effect.extend env names values) := by
  intro stack
  unfold Effect.extend
  split <;> rfl

theorem unaware_callProcedure
    (h : Unaware (s.called env ((params.map Param.name).zip args))
      (ev.sequence body (.scope .lexical s.store.frames.size env) (depth + 1))) :
    Unaware s (ev.callProcedure params body env args depth) := by
  refine (ev.unaware_descend depth s).bind fun k t hk => ?_
  obtain ⟨rfl, rfl⟩ := ev.eq_of_descend hk
  refine (unaware_extend env _ args t).bind fun scope u hu => ?_
  unfold Effect.extend at hu
  split at hu
  · cases hu
    exact .inCall h
  · cases hu

end Evaluator

theorem Form.unaware_makeProcedure (ev : Evaluator) (specs body : List Value) (env : Env)
    (s : State) : Unaware s (Form.makeProcedure ev specs body env) := by
  unfold makeProcedure
  cases params ev.isForm specs <;> exact fun _ => rfl

namespace Discipline

variable {D : Discipline} {i : Interpreter} {fuel depth : Nat} {s : State} {env : Env}

def UnawareWithin (D : Discipline) (i : Interpreter) (fuel : Nat) : Prop :=
  ∀ {e env depth s}, D.Good s → D.Allows .code s.store.frames.size e →
    D.Scope s.store.frames.size env → Unaware s (i.evalWithin fuel e env depth)

theorem UnawareWithin.sequence (h : D.Governs i) (hev : D.UnawareWithin i fuel) {es : List Value}
    (hg : D.Good s) (hc : ∀ e ∈ es, D.Allows .code s.store.frames.size e)
    (he : D.Scope s.store.frames.size env) :
    Unaware s ((i.evaluator fuel).sequence es env depth) := by
  induction es generalizing s with
  | nil => exact fun _ => rfl
  | cons e es ih =>
      cases es with
      | nil => exact hev hg (hc e (by simp)) he
      | cons e' es =>
          have hfirst := hc e (by simp)
          refine (hev hg hfirst he).bind fun v t ht => ?_
          have hafter : D.After s (stateAfter (i.evalWithin fuel e env depth s)) :=
            (h.ends fuel hg hfirst he).after
          rw [ht] at hafter
          exact ih hafter.good (fun e'' h' => h.laws.mono hafter.size_le (hc e'' (by simp [h'])))
            (h.laws.scope_mono hafter.size_le he)

theorem UnawareWithin.call (h : D.Governs i) (hev : D.UnawareWithin i fuel) {params : List Param}
    {body : List Value} {args : List Value} (hg : D.Good s)
    (hf : D.Allows .result s.store.frames.size (.procedure params body env))
    (ha : ∀ a ∈ args, D.Allows .argument s.store.frames.size a) :
    Unaware s ((i.evaluator fuel).callProcedure params body env args depth) := by
  have hle : s.store.frames.size ≤ s.store.frames.size + 1 := Nat.le_succ _
  refine Evaluator.unaware_callProcedure _ (hev.sequence h (hg.called h.laws hf ha) ?_ ?_)
  · rw [State.size_called]
    exact fun e he => h.text_code (h.laws.mono hle (h.laws.procedure_text hf e he))
  · rw [State.size_called]
    exact h.laws.scope_call (h.laws.procedure_scope hf)

theorem UnawareWithin.force (h : D.Governs i) (hev : D.UnawareWithin i fuel) {e : Value}
    (hg : D.Good s) (ht : D.Allows .text s.store.frames.size e)
    (he : D.Scope s.store.frames.size env) :
    Unaware s ((i.evaluator fuel).force e env depth) := by
  refine ((i.evaluator fuel).unaware_descend depth s).bind fun k t hk => ?_
  obtain ⟨-, rfl⟩ := (i.evaluator fuel).eq_of_descend hk
  exact hev hg (h.text_code ht) he

theorem UnawareWithin.straight (h : D.Governs i) (hev : D.UnawareWithin i fuel) {α : Type} {n : Nat}
    {x : Evaluator → Nat → Effect α} {Q : α → Nat → Prop}
    (hx : Straight D (fun _ => False) n x Q) (hn : s.store.frames.size = n) (hg : D.Good s) :
    Unaware s (x (i.evaluator fuel) depth) := by
  induction hx generalizing s with
  | primitive _ hx => exact hx s
  | @bind α β n x f Q R hx hf ihx ihf =>
      subst hn
      refine (ihx rfl hg).bind fun a t ht => ?_
      have hends : D.Ends s Q (x (i.evaluator fuel) depth s) :=
        h.ends_routine fuel (hx.routine fun _ => False.elim) hg
      rw [ht] at hends
      exact ihf a _ hends.1.size_le hends.2 rfl hends.1.good
  | explain expr _ ih => exact (ih hn hg).explain _
  | eval hc he =>
      subst hn
      exact hev hg hc he
  | force ht he =>
      subst hn
      exact hev.force h hg ht he
  | call hf ha =>
      subst hn
      exact hev.call h hg hf ha
  | ifForm name _ _ ihx ihy =>
      cases hf : (i.evaluator fuel).isForm name with
      | true =>
          simp only [hf, if_true]
          exact ihx hn hg
      | false =>
          simp only [hf]
          exact ihy (h.binds hf) hn hg
  | withBuiltin index _ _ ihx ihy =>
      cases hb : (i.evaluator fuel).builtin? index with
      | some b =>
          simp only [hb]
          exact ihx b (h.replies hb) hn hg
      | none =>
          simp only [hb]
          exact ihy hn hg
  | makeProcedure => exact Form.unaware_makeProcedure _ _ _ _ s
  | invoke hh => exact hh.elim

theorem Governs.unawareWithin (h : D.Governs i) (hA : D.AmongCalls fun _ => False)
    (hF : ∀ entry ∈ i.forms.entries, D.HostsStraight (fun _ => False) entry.2) (fuel : Nat) :
    D.UnawareWithin i fuel := by
  induction fuel with
  | zero => exact fun _ _ _ _ => rfl
  | succ fuel ih =>
      intro e env depth s hg hc he
      exact UnawareWithin.straight h @ih (Straight.step h.laws @hA hF hc he) rfl hg

end Discipline

end PassingLisp
