import PassingLisp.Proofs.Bindings

namespace PassingLisp

namespace Value

def IsReference (v : Value) : Prop :=
  ∃ name env, v = reference name env

inductive Within (u : Value) : Value → Prop where
  | here : Within u u
  | element {v : Value} {vs : List Value} (hv : v ∈ vs) (h : Within u v) : Within u (list vs)
  | body {e : Value} {params : List Param} {body : List Value} {env : Env} (he : e ∈ body)
      (h : Within u e) : Within u (procedure params body env)
  | expr {e : Value} {id : Nat} {env : Env} (h : Within u e) : Within u (delayed id e env)

end Value

def Env.Below (n : Nat) (env : Env) : Prop :=
  ∀ i ∈ env.frames, i < n

namespace Env

variable {n m : Nat} {env : Env}

theorem Below.mono (h : env.Below n) (hnm : n ≤ m) : env.Below m :=
  fun i hi => Nat.lt_of_lt_of_le (h i hi) hnm

theorem below_scope {link : Link} {frame : Nat} (hf : frame < n) (h : env.Below n) :
    (scope link frame env).Below n := by
  intro i hi
  rcases List.mem_cons.mp hi with rfl | hmem
  · exact hf
  · exact h i hmem

end Env

namespace Store

variable {σ : Store} {env : Env} {name : String} {v : Value} {i j : Nat}

def Backward (σ : Store) : Prop :=
  ∀ i name target env, (name, Value.reference target env) ∈ (σ.frame i).bindings → env.Below i

def slotsBelow (σ : Store) : Nat → Nat
  | 0 => 0
  | n + 1 => slotsBelow σ n + (σ.frame n).bindings.length

theorem slotsBelow_mono (h : i ≤ j) : σ.slotsBelow i ≤ σ.slotsBelow j := by
  induction h with
  | refl => exact Nat.le_refl _
  | step _ ih => exact Nat.le_trans ih (Nat.le_add_right _ _)

theorem slotsBelow_size : σ.slotsBelow σ.frames.size = σ.slots := by
  have hfold : σ.slots = σ.slotsBelow σ.frames.size := by
    refine Array.foldl_induction (fun k n => n = σ.slotsBelow k) rfl fun k n hn => ?_
    have hframe : σ.frame k = σ.frames[k] := by simp [frame]
    rw [slotsBelow, hn, hframe]
  exact hfold.symm

theorem slotsBelow_le_slots (i : Nat) : σ.slotsBelow i ≤ σ.slots := by
  rw [← slotsBelow_size]
  rcases Nat.le_total i σ.frames.size with h | h
  · exact slotsBelow_mono h
  · induction h with
    | refl => exact Nat.le_refl _
    | @step k hk ih =>
        rw [slotsBelow, frame_of_size_le hk]
        exact ih

theorem slotsBelow_lt (hij : j < i) {b : String × Value} (hb : b ∈ (σ.frame j).bindings) :
    σ.slotsBelow j < σ.slotsBelow i := by
  have hpos := List.length_pos_of_mem hb
  have hsucc : σ.slotsBelow (j + 1) = σ.slotsBelow j + (σ.frame j).bindings.length := rfl
  have hmono := slotsBelow_mono (σ := σ) (Nat.succ_le_of_lt hij)
  rw [Nat.succ_eq_add_one] at hmono
  omega

theorem follow_of_not_reference (fuel : Nat) (hv : ¬ v.IsReference) : σ.follow fuel v = .ok v := by
  cases v with
  | reference name env => exact absurd ⟨name, env, rfl⟩ hv
  | _ => cases fuel <;> rfl

theorem follow_ne_diverged (h : σ.Backward) {fuel : Nat} (he : env.Below i)
    (hfuel : σ.slotsBelow i ≤ fuel) :
    σ.follow fuel (.reference name env) ≠ .error .diverged := by
  induction fuel generalizing i name env with
  | zero =>
      cases hg : σ.get? env name with
      | none => simp [follow, hg]
      | some v =>
          obtain ⟨j, hj, hv⟩ := exists_frame_of_get? hg
          have hlt := slotsBelow_lt (he j hj) (Frame.mem_of_get? hv)
          omega
  | succ fuel ih =>
      cases hg : σ.get? env name with
      | none => simp [follow, hg]
      | some v =>
          obtain ⟨j, hj, hv⟩ := exists_frame_of_get? hg
          have hmem := Frame.mem_of_get? hv
          have hlt := slotsBelow_lt (he j hj) hmem
          simp only [follow, hg]
          by_cases hr : v.IsReference
          · obtain ⟨target, scope, rfl⟩ := hr
            exact ih (h j _ _ _ hmem) (by omega)
          · rw [follow_of_not_reference fuel hr]
            simp

theorem resolve_ne_diverged (h : σ.Backward) (env : Env) (name : String) :
    σ.resolve env name ≠ .error .diverged := by
  unfold resolve
  split
  · simp
  · rename_i target scope hg
    obtain ⟨i, _, hv⟩ := exists_frame_of_get? hg
    exact follow_ne_diverged h (h i _ _ _ (Frame.mem_of_get? hv)) (slotsBelow_le_slots i)
  · simp

theorem slotBy_ne_diverged {beyond : Env → String → Except Stop (Nat × String)}
    (hb : ∀ i ∈ env.frames, ∀ name target scope,
      (name, Value.reference target scope) ∈ (σ.frame i).bindings →
      beyond scope target ≠ .error .diverged) :
    σ.slotBy beyond env name ≠ .error .diverged := by
  unfold slotBy
  split
  · simp
  · rename_i i hi
    split
    · rename_i target scope hr
      exact hb i (binds_of_holder? hi).1 _ _ _ (Frame.mem_of_get? hr)
    · simp

theorem slotWithin_ne_diverged (h : σ.Backward) {fuel : Nat} (he : env.Below i)
    (hfuel : σ.slotsBelow i < fuel) : σ.slotWithin fuel env name ≠ .error .diverged := by
  induction fuel generalizing i env name with
  | zero => omega
  | succ fuel ih =>
      refine slotBy_ne_diverged fun j hj _ _ _ hmem => ?_
      have hlt := slotsBelow_lt (he j hj) hmem
      exact ih (h j _ _ _ hmem) (by omega)

theorem slot_ne_diverged (h : σ.Backward) (env : Env) (name : String) :
    σ.slot env name ≠ .error .diverged := by
  refine slotBy_ne_diverged fun i _ _ _ _ hmem => ?_
  have hlt := slotsBelow_lt (Nat.lt_succ_self i) hmem
  have hle := slotsBelow_le_slots (σ := σ) (i + 1)
  exact slotWithin_ne_diverged h (h i _ _ _ hmem) (Nat.lt_of_lt_of_le hlt hle)

end Store

end PassingLisp
