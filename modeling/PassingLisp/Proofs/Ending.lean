import PassingLisp.Proofs.Reachable

namespace PassingLisp

def Effect.Finished {α : Type} : Effect.Result α → Prop
  | .error .diverged _ => False
  | _ => True

theorem Effect.finished_leave {α : Type} {r : Result α} (stack : Env) (h : Finished r) :
    Finished (leave stack r) := by
  match r, h with
  | .ok _ _, _ => trivial
  | .error (.failed _) _, _ => trivial

theorem Form.finished_makeProcedure (ev : Evaluator) (specs body : List Value) (env : Env)
    (s : State) : Effect.Finished (makeProcedure ev specs body env s) := by
  unfold makeProcedure
  generalize params ev.isForm specs = r
  cases r <;> trivial

namespace Primitive

variable {D : Discipline} {α : Type} {n : Nat} {x : Effect α} {Q : α → Nat → Prop}

theorem finished (h : Primitive D n x Q) {s : State} (hb : s.store.Backward) :
    Effect.Finished (x s) := by
  cases h with
  | resolve name he =>
      have hne := Store.resolve_ne_diverged hb
      unfold Effect.resolve
      split
      · trivial
      · rename_i e h
        cases e with
        | failed e => trivial
        | diverged => exact hne _ _ h
  | assign name he hv =>
      have hne := Store.slot_ne_diverged hb
      unfold Effect.assign
      split
      · trivial
      · rename_i e h
        cases e with
        | failed e => trivial
        | diverged => exact hne _ _ h
  | @define env name v he hb hv => cases env <;> trivial
  | _ => trivial

end Primitive

namespace Discipline

variable {D : Discipline} {α β : Type} {s t : State} {Q : α → Nat → Prop} {R : β → Nat → Prop}

def Comes (D : Discipline) (s : State) (Q : α → Nat → Prop) (x : Nat → Effect α) : Prop :=
  ∃ limit r, Effect.Finished r ∧ D.Ends s Q r ∧ ∀ fuel, limit ≤ fuel → x fuel s = r

namespace Comes

theorem const {x : Effect α} (hf : Effect.Finished (x s)) (he : D.Ends s Q (x s)) :
    D.Comes s Q fun _ => x :=
  ⟨0, x s, hf, he, fun _ _ => rfl⟩

theorem succ {x y : Nat → Effect α} (h : D.Comes s Q x)
    (hxy : ∀ fuel, y (fuel + 1) s = x fuel s) : D.Comes s Q y := by
  obtain ⟨limit, r, hf, he, hx⟩ := h
  refine ⟨limit + 1, r, hf, he, fun fuel hfuel => ?_⟩
  cases fuel with
  | zero => omega
  | succ fuel => rw [hxy, hx fuel (Nat.le_of_succ_le_succ hfuel)]

theorem bind {x : Nat → Effect α} {f : Nat → α → Effect β} (hx : D.Comes s Q x)
    (hf : ∀ a t, D.After s t → Q a t.store.frames.size → D.Comes t R fun fuel => f fuel a) :
    D.Comes s R fun fuel => x fuel >>= f fuel := by
  obtain ⟨limit, r, hfin, hends, hx⟩ := hx
  match r, hfin, hends, hx with
  | .ok a t, _, hends, hx =>
      obtain ⟨limit', r', hfin', hends', hf⟩ := hf a t hends.1 hends.2
      refine ⟨max limit limit', r', hfin', hends.1.ends hends', fun fuel hfuel => ?_⟩
      simp only [Effect.bind_apply, hx fuel (by omega)]
      exact hf fuel (by omega)
  | .error (.failed e) t, _, hends, hx =>
      refine ⟨limit, .error (.failed e) t, trivial, hends, fun fuel hfuel => ?_⟩
      simp only [Effect.bind_apply, hx fuel hfuel]

theorem explain (hL : D.Laws) {x : Nat → Effect α} (expr : Value) (h : D.Comes s Q x) :
    D.Comes s Q fun fuel => Effect.explain (Stop.locate expr) (x fuel) := by
  obtain ⟨limit, r, hfin, hends, hx⟩ := h
  match r, hfin, hends, hx with
  | .ok a t, _, hends, hx =>
      refine ⟨limit, .ok a t, trivial, hends, fun fuel hfuel => ?_⟩
      simp only [Effect.explain, hx fuel hfuel]
  | .error (.failed e) t, _, hends, hx =>
      refine ⟨limit, .error (.failed (e.locate expr)) t, trivial,
        ⟨hends.1, hL.raises_locate hends.2 expr⟩, fun fuel hfuel => ?_⟩
      simp only [Effect.explain, hx fuel hfuel, Stop.locate]

theorem attempt {x : Nat → Effect α} (h : D.Comes s Q x) :
    D.Comes s (fun r m => ∀ a, r = .ok a → Q a m) fun fuel => Effect.attempt (x fuel) := by
  obtain ⟨limit, r, hfin, hends, hx⟩ := h
  match r, hfin, hends, hx with
  | .ok a t, _, hends, hx =>
      refine ⟨limit, .ok (.ok a) t, trivial, ⟨hends.1, fun b hb => ?_⟩, fun fuel hfuel => ?_⟩
      · cases hb
        exact hends.2
      · simp only [Effect.attempt, hx fuel hfuel]
  | .error (.failed e) t, _, hends, hx =>
      refine ⟨limit, .ok (.error e) t, trivial, ⟨hends.1, fun b hb => nomatch hb⟩,
        fun fuel hfuel => ?_⟩
      simp only [Effect.attempt, hx fuel hfuel]

end Comes

variable {Code Code' : Value → Prop}

theorem Good.recode (h : (layers Code).Good s) : (layers Code').Good s :=
  ⟨h.live, h.stack, h.slots⟩

theorem Ends.recode {r : Effect.Result α} (h : (layers Code).Ends s Q r) :
    (layers Code').Ends s Q r := by
  have hafter {t : State} (h : (layers Code).After s t) : (layers Code').After s t :=
    ⟨h.good.recode, h.size_le, h.stack_eq, h.closed⟩
  match r, h with
  | .ok _ _, h => exact ⟨hafter h.1, h.2⟩
  | .error (.failed _) _, h => exact ⟨hafter h.1, h.2⟩
  | .error .diverged _, h => exact hafter h

end Discipline

end PassingLisp
