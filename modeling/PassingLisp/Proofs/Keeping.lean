import PassingLisp.Proofs.Bindings
import PassingLisp.Proofs.Routine.Step
import PassingLisp.Session

namespace PassingLisp

namespace Discipline

variable {D : Discipline} {α β : Type} {s s' t : State} {i : Nat} {env : Env} {name : String}
  {v : Value}

structure Good (D : Discipline) (s : State) : Prop where
  live : D.Live s.store.frames.size
  stack : D.Scope s.store.frames.size s.stack
  slots : ∀ i, D.Open i → ∀ b ∈ (s.store.frame i).bindings,
    D.Binds i b.1 ∧ D.Allows (.slot i) s.store.frames.size b.2

structure After (D : Discipline) (s s' : State) : Prop where
  good : D.Good s'
  size_le : s.store.frames.size ≤ s'.store.frames.size
  stack_eq : s'.stack = s.stack
  closed : ∀ i < s.store.frames.size, ¬ D.Open i → s'.store.frame i = s.store.frame i

theorem After.refl (hg : D.Good s) : D.After s s :=
  ⟨hg, Nat.le_refl _, rfl, fun _ _ _ => rfl⟩

theorem After.trans (h : D.After s s') (h' : D.After s' t) : D.After s t where
  good := h'.good
  size_le := Nat.le_trans h.size_le h'.size_le
  stack_eq := h'.stack_eq.trans h.stack_eq
  closed i hi ho := (h'.closed i (Nat.lt_of_lt_of_le hi h.size_le) ho).trans (h.closed i hi ho)

def Ends (D : Discipline) (s : State) (Q : α → Nat → Prop) : Effect.Result α → Prop
  | .ok a s' => D.After s s' ∧ Q a s'.store.frames.size
  | .error (.failed e) s' => D.After s s' ∧ D.Raises e
  | .error .diverged s' => D.After s s'

theorem Ends.after {Q : α → Nat → Prop} {r : Effect.Result α} (h : D.Ends s Q r) :
    D.After s (stateAfter r) := by
  match r, h with
  | .ok _ _, h => exact h.1
  | .error (.failed _) _, h => exact h.1
  | .error .diverged _, h => exact h

theorem After.of_frames (hg : D.Good s) (hf : s'.store.frames = s.store.frames)
    (hs : s'.stack = s.stack) : D.After s s' := by
  have hframe (i : Nat) : s'.store.frame i = s.store.frame i := by
    simp only [Store.frame, hf]
  refine ⟨⟨?_, ?_, ?_⟩, ?_, hs, fun i _ _ => hframe i⟩
  · rw [hf]
    exact hg.live
  · rw [hf, hs]
    exact hg.stack
  · intro i ho
    rw [hf, hframe]
    exact hg.slots i ho
  · exact Nat.le_of_eq (congrArg _ hf.symm)

theorem After.update (hg : D.Good s) (ho : D.Open i) {change : Frame → Frame}
    (hc : ∀ b ∈ (change (s.store.frame i)).bindings,
      D.Binds i b.1 ∧ D.Allows (.slot i) s.store.frames.size b.2) :
    D.After s { s with store := s.store.update i change } := by
  refine ⟨⟨?_, ?_, ?_⟩, ?_, rfl, ?_⟩
  · simpa using hg.live
  · simpa using hg.stack
  · intro j hj b hb
    simp only [Store.size_frames_update]
    rcases s.store.frame_update change (i := i) (j := j) with h | ⟨rfl, h⟩
    · exact hg.slots j hj b (h ▸ hb)
    · exact hc b (h ▸ hb)
  · simp
  · intro j _ hj
    rcases s.store.frame_update change (i := i) (j := j) with h | ⟨rfl, h⟩
    · exact h
    · exact absurd ho hj

theorem Good.slot_of_get? (hL : D.Laws) (hg : D.Good s)
    (he : D.Scope s.store.frames.size env) (h : s.store.get? env name = some v) :
    ∃ i, D.Allows (.slot i) s.store.frames.size v := by
  obtain ⟨i, hi, hf⟩ := Store.exists_frame_of_get? h
  exact ⟨i, (hg.slots i (hL.scope_open he i hi) _ (Frame.mem_of_get? hf)).2⟩

def Reads (D : Discipline) (n : Nat) : Except Stop Value → Prop
  | .ok v => D.Allows .element n v
  | .error (.failed e) => D.Raises e
  | .error .diverged => True

theorem Good.reads_follow (hL : D.Laws) (hg : D.Good s) (fuel : Nat)
    (hv : D.Allows (.slot i) s.store.frames.size v) :
    D.Reads s.store.frames.size (s.store.follow fuel v) := by
  fun_induction Store.follow s.store fuel v generalizing i with
  | case1 => exact hL.raises trivial
  | case2 => trivial
  | case3 name env v h fuel ih =>
      obtain ⟨j, hj⟩ := hg.slot_of_get? hL (hL.slot_reference hv) h
      exact ih hj
  | case4 fuel v hne => exact hL.slot_element hv fun ⟨name, env, h⟩ => hne name env h

theorem Good.reads_resolve (hL : D.Laws) (hg : D.Good s)
    (he : D.Scope s.store.frames.size env) (name : String) :
    D.Reads s.store.frames.size (s.store.resolve env name) := by
  unfold Store.resolve
  split
  · exact hL.raises trivial
  · rename_i target scope h
    obtain ⟨i, hi⟩ := hg.slot_of_get? hL he h
    exact hg.reads_follow hL _ hi
  · rename_i v hne h
    obtain ⟨i, hi⟩ := hg.slot_of_get? hL he h
    exact hL.slot_element hi fun ⟨target, scope, hv⟩ => hne target scope hv

def Assigns (D : Discipline) (σ : Store) : Except Stop (Nat × String) → Prop
  | .ok (i, target) => D.Open i ∧ (σ.frame i).binds target = true
  | .error (.failed e) => D.Raises e
  | .error .diverged => True

theorem Good.assigns_slotBy (hL : D.Laws) (hg : D.Good s)
    {beyond : Env → String → Except Stop (Nat × String)}
    (hb : ∀ scope target, D.Scope s.store.frames.size scope →
      D.Assigns s.store (beyond scope target)) (he : D.Scope s.store.frames.size env)
    (name : String) : D.Assigns s.store (s.store.slotBy beyond env name) := by
  unfold Store.slotBy
  split
  · exact hL.raises trivial
  · rename_i i h
    obtain ⟨hi, hbound⟩ := Store.binds_of_holder? h
    have ho := hL.scope_open he i hi
    split
    · rename_i target scope hr
      have hslot := hg.slots i ho _ (Frame.mem_of_get? hr)
      exact hb scope target (hL.slot_reference hslot.2)
    · exact ⟨ho, hbound⟩

theorem Good.assigns_slotWithin (hL : D.Laws) (hg : D.Good s) (fuel : Nat)
    (he : D.Scope s.store.frames.size env) (name : String) :
    D.Assigns s.store (s.store.slotWithin fuel env name) := by
  induction fuel generalizing env name with
  | zero => trivial
  | succ fuel ih => exact hg.assigns_slotBy hL (fun scope target hs => ih hs target) he name

theorem Good.assigns_slot (hL : D.Laws) (hg : D.Good s) (he : D.Scope s.store.frames.size env)
    (name : String) : D.Assigns s.store (s.store.slot env name) :=
  hg.assigns_slotBy hL (fun _ target hs => hg.assigns_slotWithin hL _ hs target) he name

theorem Good.insert (hL : D.Laws) (hg : D.Good s) (ho : D.Open i) (hb : D.Binds i name)
    (hv : D.Allows .result s.store.frames.size v) :
    D.After s { s with store := s.store.update i (·.insert name v) } := by
  refine .update hg ho fun b hmem => ?_
  rcases Frame.mem_insert hmem with rfl | hold
  · exact ⟨hb, hL.result_slot hv⟩
  · exact hg.slots i ho b hold

theorem Good.erase (hg : D.Good s) (ho : D.Open i) (name : String) :
    D.After s { s with store := s.store.update i (·.erase name) } :=
  .update hg ho fun b hmem => hg.slots i ho b (Frame.mem_erase hmem)

theorem Good.unbind (hg : D.Good s) {frames : List Nat} (ho : ∀ i ∈ frames, D.Open i)
    (name : String) :
    D.After s { s with
      store := frames.foldl (fun σ i => σ.update i (·.erase name)) s.store } := by
  induction frames generalizing s with
  | nil => exact .refl hg
  | cons i frames ih =>
      have hstep := hg.erase (ho i (by simp)) name
      exact hstep.trans (ih hstep.good fun j hj => ho j (by simp [hj]))

end Discipline

open Discipline

theorem Primitive.ends {D : Discipline} (hL : D.Laws) {α : Type} {n : Nat} {x : Effect α}
    {Q : α → Nat → Prop} (h : Primitive D n x Q) {s : State} (hn : s.store.frames.size = n)
    (hg : D.Good s) : D.Ends s Q (x s) := by
  subst hn
  cases h with
  | pure a h => exact ⟨.refl hg, h⟩
  | fail e h => exact ⟨.refl hg, h⟩
  | read f h => exact ⟨.refl hg, h s.store⟩
  | stack => exact ⟨.refl hg, hg.stack⟩
  | print text => exact ⟨.of_frames hg rfl rfl, trivial⟩
  | freshDelay => exact ⟨.of_frames hg rfl rfl, trivial⟩
  | resolve name he =>
      have hr := hg.reads_resolve hL he name
      unfold Effect.resolve
      generalize s.store.resolve _ name = answer at hr
      rcases answer with (e | _) | v
      · exact ⟨.refl hg, hr⟩
      · exact After.refl hg
      · exact ⟨.refl hg, hr⟩
  | @define env name v he hb hv =>
      cases env with
      | empty => exact ⟨.refl hg, hL.raises trivial⟩
      | scope link frame parent =>
          have ho := hL.scope_open he frame (by simp [Env.frames])
          exact ⟨hg.insert hL ho (hb frame) hv, trivial⟩
  | assign name he hv =>
      have hs := hg.assigns_slot hL he name
      unfold Effect.assign
      generalize s.store.slot _ name = answer at hs
      rcases answer with (e | _) | ⟨i, target⟩
      · exact ⟨.refl hg, hs⟩
      · exact After.refl hg
      · obtain ⟨ho, hb⟩ := hs
        obtain ⟨b, hmem, rfl⟩ := List.mem_map.mp ((s.store.frame i).binds_iff.mp hb)
        exact ⟨hg.insert hL ho (hg.slots i ho b hmem).1 hv, trivial⟩
  | unbind name he => exact ⟨hg.unbind (hL.scope_open he) name, trivial⟩
  | @unbindLocally env name he =>
      cases env with
      | empty => exact ⟨.refl hg, trivial⟩
      | scope link frame parent =>
          exact ⟨hg.erase (hL.scope_open he frame (by simp [Env.frames])) name, trivial⟩

end PassingLisp
