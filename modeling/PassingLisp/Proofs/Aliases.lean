import Mathlib.Data.List.Chain
import Mathlib.Data.List.Perm.Subperm
import PassingLisp.Interpreter
import PassingLisp.Proofs.References

namespace PassingLisp

namespace Frame

variable {f : Frame} {name : String} {u v : Value}

theorem exists_put_of_find {l : List (String × Value)} (h : find name l = some u) (v : Value) :
    ∃ before after, name ∉ before.map (·.1) ∧ l = before ++ (name, u) :: after ∧
      put name v l = before ++ (name, v) :: after := by
  induction l with
  | nil => cases h
  | cons b rest ih =>
      by_cases hb : b.1 = name
      · simp only [find, hb, if_true, Option.some.injEq] at h
        subst hb h
        exact ⟨[], rest, List.not_mem_nil, rfl, by simp [put]⟩
      · simp only [find, hb, if_false] at h
        obtain ⟨before, after, hbefore, rfl, hput⟩ := ih h
        refine ⟨b :: before, after, ?_, rfl, by simp [put, hb, hput]⟩
        simp only [List.map_cons, List.mem_cons, not_or]
        exact ⟨Ne.symm hb, hbefore⟩

theorem find_append_of_not_mem {l before : List (String × Value)} (h : name ∉ before.map (·.1)) :
    find name (before ++ l) = find name l := by
  induction before with
  | nil => rfl
  | cons b before ih =>
      simp only [List.map_cons, List.mem_cons, not_or] at h
      simp only [List.cons_append, find, Ne.symm h.1, if_false, ih h.2]

theorem find_append_cons_of_ne {other : String} (h : other ≠ name)
    (before after : List (String × Value)) (u v : Value) :
    find other (before ++ (name, u) :: after) = find other (before ++ (name, v) :: after) := by
  induction before with
  | nil => simp only [List.nil_append, find, h.symm, if_false]
  | cons b before ih => simp only [List.cons_append, find, ih]

theorem binds_eq_of_names_eq {g : Frame} (h : g.names = f.names) : g.binds name = f.binds name := by
  rw [Bool.eq_iff_iff, binds_iff, binds_iff, h]

theorem binds_of_get? (h : f.get? name = some v) : f.binds name = true := by
  simp [binds, h]

end Frame

namespace Store

variable {σ τ : Store} {env scope : Env} {name target : String} {u v : Value} {i j : Nat}
  {path : List (Nat × String)} {a b : Nat × String}

theorem get?_of_holder? (h : σ.holder? env name = some i) :
    σ.get? env name = (σ.frame i).get? name := by
  induction env with
  | empty => cases h
  | scope link frame parent ih =>
      cases hf : (σ.frame frame).get? name with
      | some v =>
          simp only [holder?, Frame.binds, hf, Option.isSome_some, if_true, Option.some.injEq] at h
          simp only [get?, hf, ← h]
      | none =>
          simp only [holder?, Frame.binds, hf, Option.isSome_none, Bool.false_eq_true, if_false] at h
          simp only [get?, hf, ih h]

theorem get?_of_holder?_eq_none (h : σ.holder? env name = none) : σ.get? env name = none := by
  have hsome := σ.isSome_holder? env name
  rw [h] at hsome
  simpa using hsome.symm

theorem exists_get?_of_holder? (h : σ.holder? env name = some i) :
    ∃ v, (σ.frame i).get? name = some v :=
  Option.isSome_iff_exists.mp (binds_of_holder? h).2

def Aliases (σ : Store) (a b : Nat × String) : Prop :=
  ∃ env, (σ.frame a.1).get? a.2 = some (.reference b.2 env) ∧ σ.holder? env b.2 = some b.1

def Acyclic (σ : Store) : Prop :=
  ∀ a, ¬ Relation.TransGen σ.Aliases a a

/-- From variable to variable by the aliases that are the nearest bindings of their names, and the
slots of these aliases. -/
inductive Trail (σ : Store) : Env → String → List (Nat × String) → Env → String → Prop where
  | nil (env : Env) (name : String) : Trail σ env name [] env name
  | cons {env scope scope' : Env} {name target target' : String} {i : Nat}
      {path : List (Nat × String)} (hi : σ.holder? env name = some i)
      (hv : (σ.frame i).get? name = some (.reference target scope))
      (h : Trail σ scope target path scope' target') :
      Trail σ env name ((i, name) :: path) scope' target'

def Direct (σ : Store) (env : Env) (name : String) : Prop :=
  ∀ i v, σ.holder? env name = some i → (σ.frame i).get? name = some v → ¬ v.IsReference

theorem acyclic_of_backward (h : σ.Backward) : σ.Acyclic := by
  have hlt {a b : Nat × String} (hab : σ.Aliases a b) : b.1 < a.1 := by
    obtain ⟨env, hv, hi⟩ := hab
    exact h a.1 a.2 b.2 env (Frame.mem_of_get? hv) b.1 (binds_of_holder? hi).1
  intro a ha
  have hcycle {b : Nat × String} (hab : Relation.TransGen σ.Aliases a b) : b.1 < a.1 := by
    induction hab with
    | single hab => exact hlt hab
    | tail _ hbc ih => exact Nat.lt_trans (hlt hbc) ih
  exact Nat.lt_irrefl _ (hcycle ha)

def slotList (σ : Store) (n : Nat) : List (Nat × String) :=
  (List.range n).flatMap fun i => (σ.frame i).names.map (i, ·)

theorem length_slotList (n : Nat) : (σ.slotList n).length = σ.slotsBelow n := by
  induction n with
  | zero => rfl
  | succ n ih =>
      rw [slotList, List.range_succ, List.flatMap_append, List.length_append, ← slotList, ih,
        slotsBelow]
      simp [Frame.names]

theorem mem_slotList (h : (σ.frame i).get? name = some v) :
    (i, name) ∈ σ.slotList σ.frames.size := by
  have hbinds := (Frame.binds_iff _).mp (Frame.binds_of_get? h)
  have hi : i < σ.frames.size := by
    by_contra hi
    rw [frame_of_size_le (Nat.le_of_not_lt hi)] at hbinds
    cases hbinds
  exact List.mem_flatMap.mpr ⟨i, List.mem_range.mpr hi, List.mem_map.mpr ⟨name, hbinds, rfl⟩⟩

theorem get?_eq (hi : σ.holder? env name = some i) (hv : (σ.frame i).get? name = some v) :
    σ.get? env name = some v :=
  (get?_of_holder? hi).trans hv

def found (σ : Store) (scope : Env) (target : String) : Except Stop Value :=
  match σ.get? scope target with
  | none => .error (.failed (.unbound target))
  | some v => .ok v

def place (σ : Store) (scope : Env) (target : String) : Except Stop (Nat × String) :=
  match σ.holder? scope target with
  | none => .error (.failed (.unbound target))
  | some i => .ok (i, target)

namespace Trail

theorem head? (h : σ.Trail env name path scope target) (ha : a ∈ path.head?) :
    σ.holder? env name = some a.1 ∧ a.2 = name := by
  cases h with
  | nil => cases ha
  | cons hi =>
      cases ha
      exact ⟨hi, rfl⟩

theorem holds_reference (h : σ.Trail env name path scope target) (ha : a ∈ path) :
    ∃ target' scope', (σ.frame a.1).get? a.2 = some (.reference target' scope') := by
  induction h with
  | nil => cases ha
  | cons hi hv _ ih =>
      rcases List.mem_cons.mp ha with rfl | ha
      · exact ⟨_, _, hv⟩
      · exact ih ha

theorem isChain (h : σ.Trail env name path scope target) : path.IsChain σ.Aliases := by
  induction h with
  | nil => exact .nil
  | @cons _ scope _ _ target _ _ path hi hv h ih =>
      refine List.isChain_cons.mpr ⟨fun a ha => ?_, ih⟩
      obtain ⟨hj, htarget⟩ := h.head? ha
      exact ⟨scope, htarget ▸ hv, htarget ▸ hj⟩

theorem length_le_of_nodup (h : σ.Trail env name path scope target) (hnodup : path.Nodup) :
    path.length ≤ σ.slots := by
  have hsub : path ⊆ σ.slotList σ.frames.size := by
    intro a ha
    obtain ⟨target', scope', hv⟩ := h.holds_reference ha
    exact mem_slotList hv
  calc
    path.length ≤ (σ.slotList σ.frames.size).length := (List.subperm_of_subset hnodup hsub).length_le
    _ = σ.slots := by rw [length_slotList, slotsBelow_size]

theorem length_le (hσ : σ.Acyclic) (h : σ.Trail env name path scope target) :
    path.length ≤ σ.slots := by
  have hchain : path.IsChain (Relation.TransGen σ.Aliases) := h.isChain.imp fun _ _ => .single
  refine h.length_le_of_nodup (hchain.pairwise.imp fun {a b} hab => ?_)
  rintro rfl
  exact hσ a hab

theorem exists_direct_or_longer (σ : Store) (env : Env) (name : String) (n : Nat) :
    ∃ path scope target, σ.Trail env name path scope target ∧
      (σ.Direct scope target ∨ path.length = n) := by
  induction n generalizing env name with
  | zero => exact ⟨[], env, name, .nil env name, .inr rfl⟩
  | succ n ih =>
      by_cases hd : σ.Direct env name
      · exact ⟨[], env, name, .nil env name, .inl hd⟩
      · simp only [Direct, not_forall, not_not] at hd
        obtain ⟨i, v, hi, hv, target, scope, rfl⟩ := hd
        obtain ⟨path, scope', target', h, hend⟩ := ih scope target
        exact ⟨_, _, _, .cons hi hv h, hend.imp_right fun hlen => by simp [hlen]⟩

theorem exists_direct (hσ : σ.Acyclic) (env : Env) (name : String) :
    ∃ path scope target, σ.Trail env name path scope target ∧ σ.Direct scope target := by
  obtain ⟨path, scope, target, h, hend⟩ := exists_direct_or_longer σ env name (σ.slots + 1)
  refine ⟨path, scope, target, h, hend.resolve_right fun hlen => ?_⟩
  have hle := h.length_le hσ
  omega

theorem not_isReference_of_direct (hd : σ.Direct env name) (hv : σ.get? env name = some v) :
    ¬ v.IsReference := by
  cases hi : σ.holder? env name with
  | none =>
      rw [get?_of_holder?_eq_none hi] at hv
      cases hv
  | some i =>
      rw [get?_of_holder? hi] at hv
      exact hd i v hi hv

theorem follow_eq (h : σ.Trail env name path scope target) (hd : σ.Direct scope target)
    {fuel : Nat} (hfuel : path.length < fuel) :
    σ.follow fuel (.reference name env) = found σ scope target := by
  induction h generalizing fuel with
  | nil scope target =>
      obtain ⟨fuel, rfl⟩ := Nat.exists_eq_add_of_lt hfuel
      unfold found
      cases hv : σ.get? scope target with
      | none => simp only [follow, hv]
      | some v => simp only [follow, hv, follow_of_not_reference _ (not_isReference_of_direct hd hv)]
  | cons hi hv _ ih =>
      cases fuel with
      | zero => cases hfuel
      | succ fuel =>
          rw [follow, get?_eq hi hv]
          exact ih hd (Nat.lt_of_succ_lt_succ hfuel)

theorem resolve_eq (h : σ.Trail env name path scope target) (hd : σ.Direct scope target)
    (hlen : path.length ≤ σ.slots) : σ.resolve env name = found σ scope target := by
  cases h with
  | nil =>
      unfold resolve found
      cases hv : σ.get? env name with
      | none => rfl
      | some v =>
          have hr := not_isReference_of_direct hd hv
          cases v with
          | reference name env => exact absurd ⟨name, env, rfl⟩ hr
          | _ => rfl
  | cons hi hv h =>
      simp only [resolve, get?_eq hi hv]
      exact h.follow_eq hd hlen

theorem slotBy_eq_place {beyond : Env → String → Except Stop (Nat × String)}
    (hd : σ.Direct scope target) : σ.slotBy beyond scope target = place σ scope target := by
  unfold slotBy place
  cases hi : σ.holder? scope target with
  | none => rfl
  | some i =>
      obtain ⟨v, hv⟩ := exists_get?_of_holder? hi
      have hr := hd i v hi hv
      simp only [hv]
      cases v with
      | reference name env => exact absurd ⟨name, env, rfl⟩ hr
      | _ => rfl

theorem slotWithin_eq (h : σ.Trail env name path scope target) (hd : σ.Direct scope target)
    {fuel : Nat} (hfuel : path.length < fuel) :
    σ.slotWithin fuel env name = place σ scope target := by
  induction h generalizing fuel with
  | nil scope target =>
      obtain ⟨fuel, rfl⟩ := Nat.exists_eq_add_of_lt hfuel
      exact slotBy_eq_place hd
  | cons hi hv _ ih =>
      cases fuel with
      | zero => cases hfuel
      | succ fuel =>
          simp only [slotWithin, slotBy, hi, hv]
          exact ih hd (Nat.lt_of_succ_lt_succ hfuel)

theorem slot_eq (h : σ.Trail env name path scope target) (hd : σ.Direct scope target)
    (hlen : path.length ≤ σ.slots) : σ.slot env name = place σ scope target := by
  cases h with
  | nil => exact slotBy_eq_place hd
  | cons hi hv h =>
      simp only [slot, slotBy, hi, hv]
      exact h.slotWithin_eq hd hlen

end Trail

structure DiffersAt (σ τ : Store) (i : Nat) (name : String) (u v : Value) : Prop where
  delays_eq : τ.delays = σ.delays
  size_eq : τ.frames.size = σ.frames.size
  frame_eq : ∀ j, j ≠ i → τ.frame j = σ.frame j
  bindings_eq : ∃ before after, name ∉ before.map (·.1) ∧
    (σ.frame i).bindings = before ++ (name, u) :: after ∧
    (τ.frame i).bindings = before ++ (name, v) :: after

theorem differsAt_update (h : (σ.frame i).get? name = some u) (v : Value) :
    σ.DiffersAt (σ.update i (·.insert name v)) i name u v where
  delays_eq := rfl
  size_eq := σ.size_frames_update i _
  frame_eq _ hj := σ.frame_update_of_ne hj _
  bindings_eq := by
    have hi : i < σ.frames.size := by
      by_contra hi
      rw [frame_of_size_le (Nat.le_of_not_lt hi)] at h
      cases h
    obtain ⟨before, after, hbefore, hold, hnew⟩ := Frame.exists_put_of_find h v
    refine ⟨before, after, hbefore, hold, ?_⟩
    rw [σ.frame_update_self hi]
    exact hnew

namespace DiffersAt

variable {u v : Value}

theorem names_eq (h : σ.DiffersAt τ i name u v) (j : Nat) :
    (τ.frame j).names = (σ.frame j).names := by
  by_cases hj : j = i
  · subst hj
    obtain ⟨before, after, -, hold, hnew⟩ := h.bindings_eq
    simp [Frame.names, hold, hnew]
  · rw [h.frame_eq j hj]

theorem get?_self (h : σ.DiffersAt τ i name u v) : (τ.frame i).get? name = some v := by
  obtain ⟨before, after, hbefore, -, hnew⟩ := h.bindings_eq
  rw [Frame.get?, hnew, Frame.find_append_of_not_mem hbefore]
  exact if_pos rfl

theorem get?_of_ne (h : σ.DiffersAt τ i name u v) (ha : a ≠ (i, name)) :
    (τ.frame a.1).get? a.2 = (σ.frame a.1).get? a.2 := by
  by_cases hj : a.1 = i
  · have hname : a.2 ≠ name := fun hname => ha (Prod.ext hj hname)
    obtain ⟨before, after, -, hold, hnew⟩ := h.bindings_eq
    rw [hj, Frame.get?, Frame.get?, hold, hnew]
    exact Frame.find_append_cons_of_ne hname before after v u
  · rw [h.frame_eq _ hj]

theorem holder?_eq (h : σ.DiffersAt τ i name u v) (env : Env) (other : String) :
    τ.holder? env other = σ.holder? env other := by
  induction env with
  | empty => rfl
  | scope link frame parent ih =>
      simp only [holder?, Frame.binds_eq_of_names_eq (h.names_eq frame), ih]

theorem slots_eq (h : σ.DiffersAt τ i name u v) : τ.slots = σ.slots := by
  have hlist : τ.slotList τ.frames.size = σ.slotList σ.frames.size := by
    simp only [slotList, h.names_eq, h.size_eq]
  rw [← slotsBelow_size, ← slotsBelow_size, ← length_slotList, ← length_slotList, hlist]

theorem symm (h : σ.DiffersAt τ i name u v) : τ.DiffersAt σ i name v u where
  delays_eq := h.delays_eq.symm
  size_eq := h.size_eq.symm
  frame_eq j hj := (h.frame_eq j hj).symm
  bindings_eq := by
    obtain ⟨before, after, hbefore, hold, hnew⟩ := h.bindings_eq
    exact ⟨before, after, hbefore, hnew, hold⟩

theorem get?_of_reference (h : σ.DiffersAt τ i name u v) (hu : ¬ u.IsReference)
    (ha : (σ.frame a.1).get? a.2 = some (.reference target scope)) :
    (τ.frame a.1).get? a.2 = some (.reference target scope) := by
  have hne : a ≠ (i, name) := by
    rintro rfl
    rw [h.symm.get?_self, Option.some.injEq] at ha
    exact hu ⟨target, scope, ha⟩
  rw [h.get?_of_ne hne, ha]

theorem trail (h : σ.DiffersAt τ i name u v) (hu : ¬ u.IsReference) {target' : String}
    (hpath : σ.Trail env target path scope target') : τ.Trail env target path scope target' := by
  induction hpath with
  | nil env name => exact .nil env name
  | cons hi hv _ ih =>
      exact .cons ((h.holder?_eq _ _).trans hi) (h.get?_of_reference (a := (_, _)) hu hv) ih

end DiffersAt

end Store

structure State.Assigned (s t : State) (env : Env) (name : String) (path : List (Nat × String))
    (i : Nat) (target : String) (u v : Value) : Prop where
  stack_eq : t.stack = s.stack
  output_eq : t.output = s.output
  differs : s.store.DiffersAt t.store i target u v
  names_eq : ∀ j, (t.store.frame j).names = (s.store.frame j).names
  aliases : ∀ a ∈ path, ∃ target' scope',
    (s.store.frame a.1).get? a.2 = some (.reference target' scope') ∧
      (t.store.frame a.1).get? a.2 = some (.reference target' scope')
  reads : ¬ v.IsReference → Effect.resolve env name t = .ok v t

def State.AssignsWhatItReads (s : State) (env : Env) (name : String) : Prop :=
  ∃ path scope target, s.store.Trail env name path scope target ∧
    ((s.store.holder? scope target = none ∧
        Effect.resolve env name s = .error (.failed (.unbound target)) s ∧
        ∀ v, Effect.assign env name v s = .error (.failed (.unbound target)) s) ∨
      ∃ i u, s.store.holder? scope target = some i ∧
        (s.store.frame i).get? target = some u ∧ ¬ u.IsReference ∧
        Effect.resolve env name s = .ok u s ∧
        ∀ v, ∃ t, Effect.assign env name v s = .ok () t ∧ s.Assigned t env name path i target u v)

theorem State.assigned_update {s : State} {env scope : Env} {name target : String}
    {path : List (Nat × String)} {i : Nat} {u : Value} (hσ : s.store.Acyclic)
    (h : s.store.Trail env name path scope target) (hi : s.store.holder? scope target = some i)
    (hu : (s.store.frame i).get? target = some u) (hr : ¬ u.IsReference) (v : Value) :
    s.Assigned { s with store := s.store.update i (·.insert target v) } env name path i target u
      v := by
  have hdiffers := Store.differsAt_update hu v
  refine ⟨rfl, rfl, hdiffers, hdiffers.names_eq, fun a ha => ?_, fun hv => ?_⟩
  · obtain ⟨target', scope', hslot⟩ := h.holds_reference ha
    exact ⟨target', scope', hslot, hdiffers.get?_of_reference hr hslot⟩
  · have hi' := (hdiffers.holder?_eq scope target).trans hi
    have hdirect : (s.store.update i (·.insert target v)).Direct scope target := by
      intro j w hj hw
      rw [hi', Option.some.injEq] at hj
      subst hj
      rw [hdiffers.get?_self, Option.some.injEq] at hw
      exact hw ▸ hv
    have hlen : path.length ≤ (s.store.update i (·.insert target v)).slots := by
      rw [hdiffers.slots_eq]
      exact h.length_le hσ
    have hread := (hdiffers.trail hr h).resolve_eq hdirect hlen
    rw [Store.found, Store.get?_eq hi' hdiffers.get?_self] at hread
    simp only [Effect.resolve, hread]

theorem State.assignsWhatItReads {s : State} (h : s.store.Acyclic) (env : Env) (name : String) :
    s.AssignsWhatItReads env name := by
  obtain ⟨path, scope, target, htrail, hdirect⟩ := Store.Trail.exists_direct h env name
  have hresolve := htrail.resolve_eq hdirect (htrail.length_le h)
  have hslot := htrail.slot_eq hdirect (htrail.length_le h)
  refine ⟨path, scope, target, htrail, ?_⟩
  cases hi : s.store.holder? scope target with
  | none =>
      rw [Store.found, Store.get?_of_holder?_eq_none hi] at hresolve
      rw [Store.place, hi] at hslot
      refine .inl ⟨rfl, ?_, fun v => ?_⟩
      · simp only [Effect.resolve, hresolve]
      · simp only [Effect.assign, hslot]
  | some i =>
      obtain ⟨u, hu⟩ := Store.exists_get?_of_holder? hi
      have hr := hdirect i u hi hu
      rw [Store.found, Store.get?_eq hi hu] at hresolve
      rw [Store.place, hi] at hslot
      refine .inr ⟨i, u, rfl, hu, hr, ?_, fun v => ?_⟩
      · simp only [Effect.resolve, hresolve]
      · refine ⟨_, ?_, State.assigned_update h htrail hi hu hr v⟩
        simp only [Effect.assign, hslot]

namespace State

def aliasedScope : Env :=
  .scope .lexical 2 .globals

def aliased : State where
  store := { frames := #[
    ⟨[("x", .number 1), ("z", .number 2)]⟩,
    ⟨[("y", .reference "x" .globals)]⟩,
    ⟨[("z", .reference "y" (.scope .lexical 1 .globals))]⟩] }
  stack := .globals

theorem backward_aliased : aliased.store.Backward := by
  have hglobals : Env.globals.Below 1 := by
    intro i hi
    rw [List.mem_singleton.mp hi]
    exact Nat.zero_lt_one
  intro i name target env hmem
  match i with
  | 0 => simp [aliased, Store.frame] at hmem
  | 1 =>
      obtain ⟨-, -, rfl⟩ : name = "y" ∧ target = "x" ∧ env = .globals := by
        simpa [aliased, Store.frame] using hmem
      exact hglobals
  | 2 =>
      obtain ⟨-, -, rfl⟩ : name = "z" ∧ target = "y" ∧ env = .scope .lexical 1 .globals := by
        simpa [aliased, Store.frame] using hmem
      exact Env.below_scope (by decide) (hglobals.mono (by decide))
  | i + 3 =>
      rw [Store.frame_of_size_le (Nat.le_add_left 3 i)] at hmem
      cases hmem

theorem assignsWhatItReads_aliased :
    aliased.store.Acyclic ∧ Effect.resolve aliasedScope "z" aliased = .ok (.number 1) aliased ∧
      aliased.AssignsWhatItReads aliasedScope "z" := by
  have hacyclic := Store.acyclic_of_backward backward_aliased
  exact ⟨hacyclic, rfl, assignsWhatItReads hacyclic aliasedScope "z"⟩

end State

end PassingLisp
