import Mathlib.Logic.Function.Iterate
import PassingLisp.Proofs.Aliases
import PassingLisp.Proofs.Changes

namespace PassingLisp

namespace Env

theorem frames_parent (env : Env) : env.parent.frames = env.frames.tail := by
  cases env <;> rfl

theorem frames_iterate_parent (n : Nat) (env : Env) :
    (Env.parent^[n] env).frames = env.frames.drop n := by
  induction n generalizing env with
  | zero => rfl
  | succ n ih => rw [Function.iterate_succ_apply, ih, frames_parent, List.drop_tail]

end Env

theorem Frame.erase_erase (f : Frame) (name : String) :
    (f.erase name).erase name = f.erase name := by
  simp [erase, List.filter_filter]

namespace Store

inductive Operation where
  | define (env : Env) (name : String) (value : Value)
  | assign (env : Env) (name : String) (value : Value)
  | unbind (env : Env) (name : String)
  | unbindLocally (env : Env) (name : String)

def Operation.value? : Operation → Option Value
  | define _ _ value | assign _ _ value => some value
  | unbind .. | unbindLocally .. => none

section Definitions

variable (σ : Store)

def perform : Operation → Except Stop Store
  | .define env name value =>
      match σ.define env name value with
      | .ok τ => .ok τ
      | .error e => .error (.failed e)
  | .assign env name value => σ.assign env name value
  | .unbind env name => .ok (σ.unbind env name)
  | .unbindLocally env name => .ok (σ.unbindLocally env name)

def next (op : Operation) : Store :=
  match σ.perform op with
  | .ok τ => τ
  | .error _ => σ

def moment (ops : List Operation) (n : Nat) : Store :=
  (ops.take n).foldl next σ

/-- The newest frame of `env` binds the name at moment `n` and has done so since moment `k`, which
is the start or that of the operation that bound it anew. -/
structure BoundSince (ops : List Operation) (env : Env) (n : Nat) (name : String) (k : Nat) :
    Prop where
  le : k ≤ n
  bound : ∀ m, k ≤ m → m ≤ n → (σ.moment ops m).isLocallyDefined env name = true
  newly : ∀ j, k = j + 1 → (σ.moment ops j).isLocallyDefined env name = false

def BoundBefore (ops : List Operation) (env : Env) (n : Nat) (a b : String) : Prop :=
  ∀ k l, σ.BoundSince ops env n a k → σ.BoundSince ops env n b l →
    k < l ∨ k = 0 ∧ l = 0 ∧ [a, b].Sublist (σ.localNames env)

structure PlacesNames : Prop where
  redefined {env : Env} {name : String} (v : Value) (scope : Env) :
    σ.isLocallyDefined env name = true →
      (σ.next (.define env name v)).localNames scope = σ.localNames scope
  assigned (env : Env) (name : String) (v : Value) (scope : Env) :
    (σ.next (.assign env name v)).localNames scope = σ.localNames scope
  defined {link : Link} {i : Nat} {parent : Env} {name : String} (v : Value) :
    i < σ.frames.size → σ.isLocallyDefined (.scope link i parent) name = false →
      (σ.next (.define (.scope link i parent) name v)).localNames (.scope link i parent) =
        σ.localNames (.scope link i parent) ++ [name]
  unbound (env : Env) (name : String) (scope : Env) :
    ((σ.unbind env name).localNames scope).Sublist (σ.localNames scope)
  unbound_locally (env : Env) (name : String) (scope : Env) :
    ((σ.unbindLocally env name).localNames scope).Sublist (σ.localNames scope)

structure Removes (env : Env) (name : String) : Prop where
  undefined (n : Nat) : (σ.unbind env name).isDefined (Env.parent^[n] env) name = false
  reveals : (σ.unbindLocally env name).get? env name =
    (σ.unbindLocally env name).get? env.parent name
  again : (σ.unbind env name).unbind env name = σ.unbind env name
  again_locally : (σ.unbindLocally env name).unbindLocally env name = σ.unbindLocally env name
  others (other : String) : other ≠ name → ∀ j,
    ((σ.unbind env name).frame j).get? other = (σ.frame j).get? other ∧
      ((σ.unbindLocally env name).frame j).get? other = (σ.frame j).get? other
  outside : ∀ j, j ∉ env.frames → (σ.unbind env name).frame j = σ.frame j
  outside_locally : ∀ j, j ∉ env.frames.head? → (σ.unbindLocally env name).frame j = σ.frame j

structure KeepsHistory (ops : List Operation) : Prop where
  ends (n : Nat) (op : Operation) : ops[n]? = some op →
    (σ.moment ops n).perform op ≠ .error .diverged
  nodup (n : Nat) (env : Env) : ((σ.moment ops n).localNames env).Nodup
  mem_iff (n : Nat) (env : Env) (name : String) : name ∈ (σ.moment ops n).localNames env ↔
    (σ.moment ops n).isLocallyDefined env name = true
  since (n : Nat) (env : Env) (name : String) : name ∈ (σ.moment ops n).localNames env →
    ∃! k, σ.BoundSince ops env n name k
  ordered (n : Nat) (env : Env) :
    ((σ.moment ops n).localNames env).Pairwise (σ.BoundBefore ops env n)
  places (n : Nat) : (σ.moment ops n).PlacesNames
  removes (n : Nat) (env : Env) (name : String) : (σ.moment ops n).Removes env name

end Definitions

variable {σ τ : Store} {ops : List Operation} {op : Operation} {env : Env} {name a b : String}
  {v : Value} {i j k l n : Nat}

theorem eq_of_frame_eq (hdelays : τ.delays = σ.delays) (hsize : τ.frames.size = σ.frames.size)
    (hframe : ∀ j, τ.frame j = σ.frame j) : τ = σ := by
  obtain ⟨fs, d⟩ := τ
  obtain ⟨gs, d'⟩ := σ
  cases hdelays
  congr
  refine Array.ext hsize fun j hj hj' => ?_
  have hj'' := hframe j
  simpa [frame, hj, hj'] using hj''

theorem mem_localNames_iff :
    name ∈ σ.localNames env ↔ σ.isLocallyDefined env name = true := by
  cases env with
  | empty => simp [localNames, isLocallyDefined]
  | scope link i parent => exact (Frame.binds_iff _).symm

section Removal

theorem frame_update_erase :
    (σ.update i (·.erase name)).frame j =
      if j = i then (σ.frame j).erase name else σ.frame j := by
  split
  · subst i
    by_cases hj : j < σ.frames.size
    · exact σ.frame_update_self hj _
    · have hle : σ.frames.size ≤ j := Nat.le_of_not_lt hj
      rw [frame_of_size_le (by simpa using hle), frame_of_size_le hle]
      rfl
  · exact σ.frame_update_of_ne ‹_› _

theorem frame_unbind :
    (σ.unbind env name).frame j =
      if j ∈ env.frames then (σ.frame j).erase name else σ.frame j := by
  unfold unbind
  induction env.frames generalizing σ with
  | nil => rfl
  | cons i frames ih =>
      rw [List.foldl_cons, ih, frame_update_erase]
      by_cases hi : j = i <;> by_cases hj : j ∈ frames <;> simp [hi, hj, Frame.erase_erase]

theorem frame_unbindLocally :
    (σ.unbindLocally env name).frame j =
      if j ∈ env.frames.head? then (σ.frame j).erase name else σ.frame j := by
  cases env with
  | empty => rfl
  | scope link i parent =>
      rw [unbindLocally, frame_update_erase]
      simp only [Env.frames, List.head?_cons, Option.mem_def, Option.some.injEq, eq_comm]

theorem size_unbind (env : Env) (name : String) :
    (σ.unbind env name).frames.size = σ.frames.size := by
  unfold unbind
  induction env.frames generalizing σ with
  | nil => rfl
  | cons i frames ih => rw [List.foldl_cons, ih, size_frames_update]

theorem delays_unbind (env : Env) (name : String) : (σ.unbind env name).delays = σ.delays := by
  unfold unbind
  induction env.frames generalizing σ with
  | nil => rfl
  | cons i frames ih =>
      rw [List.foldl_cons, ih]
      rfl

theorem get?_unbind_self (h : j ∈ env.frames) : ((σ.unbind env name).frame j).get? name = none := by
  rw [frame_unbind, if_pos h]
  exact (σ.frame j).get?_erase_self

theorem unbind_unbind (env : Env) (name : String) :
    (σ.unbind env name).unbind env name = σ.unbind env name := by
  refine eq_of_frame_eq (delays_unbind env name) (size_unbind env name) fun j => ?_
  simp only [frame_unbind]
  split
  · exact Frame.erase_erase _ name
  · rfl

theorem unbindLocally_unbindLocally (env : Env) (name : String) :
    (σ.unbindLocally env name).unbindLocally env name = σ.unbindLocally env name := by
  cases env with
  | empty => rfl
  | scope link i parent =>
      refine eq_of_frame_eq rfl (size_frames_update _ i _) fun j => ?_
      simp only [frame_unbindLocally]
      split
      · exact Frame.erase_erase _ name
      · rfl

theorem get?_unbindLocally_self :
    (σ.unbindLocally env name).get? env name = (σ.unbindLocally env name).get? env.parent name := by
  cases env with
  | empty => rfl
  | scope link i parent =>
      have hnone : ((σ.unbindLocally (.scope link i parent) name).frame i).get? name = none := by
        have hi : i ∈ (Env.scope link i parent).frames.head? := rfl
        rw [frame_unbindLocally, if_pos hi]
        exact (σ.frame i).get?_erase_self
      rw [get?, hnone]
      rfl

theorem removes (σ : Store) (env : Env) (name : String) : σ.Removes env name where
  undefined n := by
    rw [isDefined, List.any_eq_false]
    intro j hj
    rw [Env.frames_iterate_parent] at hj
    rw [Frame.binds, get?_unbind_self (List.mem_of_mem_drop hj)]
    exact Bool.false_ne_true
  reveals := get?_unbindLocally_self
  again := unbind_unbind env name
  again_locally := unbindLocally_unbindLocally env name
  others other hother j := by
    rw [frame_unbind, frame_unbindLocally]
    constructor <;> split <;> first | exact (σ.frame j).get?_erase_of_ne hother | rfl
  outside j hj := by rw [frame_unbind, if_neg hj]
  outside_locally j hj := by rw [frame_unbindLocally, if_neg hj]

end Removal

section Step

theorem binds_of_slot (h : σ.slot env name = .ok (i, a)) : (σ.frame i).binds a = true := by
  have hslot : Discipline.anything.Assigns σ (σ.slot env name) :=
    (Discipline.good_anything { store := σ }).assigns_slot Discipline.laws_anything trivial name
  rw [h] at hslot
  exact hslot.2

theorem frame_next (σ : Store) (op : Operation) (j : Nat) :
    (σ.next op).frame j = σ.frame j ∨
      (∃ name v, op.value? = some v ∧ (σ.next op).frame j = (σ.frame j).insert name v) ∨
      ∃ name, (σ.next op).frame j = (σ.frame j).erase name := by
  cases op with
  | define env name v =>
      cases env with
      | empty => exact .inl rfl
      | scope link i parent =>
          rcases σ.frame_update (·.insert name v) (i := i) (j := j) with h | ⟨-, h⟩
          · exact .inl h
          · exact .inr (.inl ⟨name, v, rfl, h⟩)
  | assign env name v =>
      rw [next, perform, assign]
      match σ.slot env name with
      | .error _ => exact .inl rfl
      | .ok (i, target) =>
          rcases σ.frame_update (·.insert target v) (i := i) (j := j) with h | ⟨-, h⟩
          · exact .inl h
          · exact .inr (.inl ⟨target, v, rfl, h⟩)
  | unbind env name =>
      rw [next, perform, frame_unbind]
      split
      · exact .inr (.inr ⟨name, rfl⟩)
      · exact .inl rfl
  | unbindLocally env name =>
      rw [next, perform, frame_unbindLocally]
      split
      · exact .inr (.inr ⟨name, rfl⟩)
      · exact .inl rfl

theorem relists_next (σ : Store) (op : Operation) (env : Env) :
    ∃ name, Frame.Relists name (σ.localNames env) ((σ.next op).localNames env) := by
  cases env with
  | empty => exact ⟨"", .kept []⟩
  | scope link j parent =>
      change ∃ name, Frame.Relists name (σ.frame j).names ((σ.next op).frame j).names
      rcases σ.frame_next op j with h | ⟨name, v, -, h⟩ | ⟨name, h⟩
      · exact ⟨"", h ▸ .kept _⟩
      · exact ⟨name, h ▸ Frame.relists_insert _ name v⟩
      · exact ⟨name, h ▸ Frame.relists_erase _ name⟩

theorem localNames_update {change : Frame → Frame}
    (h : (change (σ.frame i)).names = (σ.frame i).names) (env : Env) :
    (σ.update i change).localNames env = σ.localNames env := by
  cases env with
  | empty => rfl
  | scope link j parent =>
      rcases σ.frame_update change (i := i) (j := j) with hj | ⟨rfl, hj⟩
      · exact congrArg Frame.names hj
      · exact (congrArg Frame.names hj).trans h

theorem localNames_sublist (h : ∀ j, (τ.frame j).names.Sublist (σ.frame j).names) (env : Env) :
    (τ.localNames env).Sublist (σ.localNames env) := by
  cases env with
  | empty => exact .slnil
  | scope link j parent => exact h j

theorem placesNames (σ : Store) : σ.PlacesNames where
  redefined {env name} v scope h := by
    cases env with
    | empty => rfl
    | scope link i parent => exact localNames_update ((σ.frame i).names_insert_of_binds h) scope
  assigned env name v scope := by
    rw [next, perform, assign]
    match h : σ.slot env name with
    | .error _ => rfl
    | .ok (i, target) =>
        exact localNames_update ((σ.frame i).names_insert_of_binds (binds_of_slot h)) scope
  defined {link i parent name} v hi h := by
    have hframe := σ.frame_update_self hi (·.insert name v)
    exact (congrArg Frame.names hframe).trans ((σ.frame i).names_insert_of_not_binds h)
  unbound env name scope := by
    refine localNames_sublist (fun j => ?_) scope
    rw [frame_unbind]
    split
    · exact Frame.names_erase_sublist _ name
    · exact .refl _
  unbound_locally env name scope := by
    refine localNames_sublist (fun j => ?_) scope
    rw [frame_unbindLocally]
    split
    · exact Frame.names_erase_sublist _ name
    · exact .refl _

theorem perform_ne_diverged (h : σ.Acyclic) (op : Operation) : σ.perform op ≠ .error .diverged := by
  intro hop
  cases op with
  | define env name v => cases env <;> cases hop
  | assign env name v =>
      obtain ⟨path, scope, target, htrail, hdirect⟩ := Trail.exists_direct h env name
      rw [perform, assign, htrail.slot_eq hdirect (htrail.length_le h), place] at hop
      cases hi : σ.holder? scope target <;> rw [hi] at hop <;> cases hop
  | unbind env name => cases hop
  | unbindLocally env name => cases hop

end Step

section Run

theorem moment_succ (σ : Store) (ops : List Operation) (n : Nat) :
    σ.moment ops (n + 1) = σ.moment ops n ∨
      ∃ op ∈ ops, σ.moment ops (n + 1) = (σ.moment ops n).next op := by
  unfold moment
  rw [List.take_add_one, List.foldl_append]
  cases h : ops[n]? with
  | none => exact .inl rfl
  | some op => exact .inr ⟨op, List.mem_of_getElem? h, rfl⟩

theorem relists_moment (σ : Store) (ops : List Operation) (env : Env) (n : Nat) :
    ∃ name, Frame.Relists name ((σ.moment ops n).localNames env)
      ((σ.moment ops (n + 1)).localNames env) := by
  rcases σ.moment_succ ops n with h | ⟨op, -, h⟩
  · exact ⟨"", h ▸ .kept _⟩
  · exact h ▸ (σ.moment ops n).relists_next op env

theorem nodup_moment (hσ : σ.Keyed) (ops : List Operation) (env : Env) (n : Nat) :
    ((σ.moment ops n).localNames env).Nodup := by
  induction n with
  | zero =>
      cases env with
      | empty => exact List.nodup_nil
      | scope link i parent => exact hσ i
  | succ n ih =>
      obtain ⟨name, h⟩ := σ.relists_moment ops env n
      exact h.nodup ih

namespace BoundSince

theorem unique (hk : σ.BoundSince ops env n name k) (hl : σ.BoundSince ops env n name l) :
    l = k := by
  have hle {k l : Nat} (hk : σ.BoundSince ops env n name k) (hl : σ.BoundSince ops env n name l) :
      l ≤ k := by
    by_contra hlt
    obtain ⟨j, rfl⟩ : ∃ j, l = j + 1 := Nat.exists_eq_succ_of_ne_zero (by omega)
    have hj := hk.bound j (by omega) (by have := hl.le; omega)
    rw [hl.newly j rfl] at hj
    cases hj
  exact Nat.le_antisymm (hle hk hl) (hle hl hk)

theorem later (h : σ.BoundSince ops env n name k)
    (hn : (σ.moment ops (n + 1)).isLocallyDefined env name = true) :
    σ.BoundSince ops env (n + 1) name k where
  le := Nat.le_succ_of_le h.le
  bound m hm hmn := by
    rcases Nat.lt_or_eq_of_le hmn with hlt | rfl
    · exact h.bound m hm (Nat.le_of_lt_succ hlt)
    · exact hn
  newly := h.newly

theorem earlier (h : σ.BoundSince ops env (n + 1) name k)
    (hn : (σ.moment ops n).isLocallyDefined env name = true) : σ.BoundSince ops env n name k where
  le := by
    refine Nat.le_of_lt_succ (Nat.lt_of_le_of_ne h.le ?_)
    rintro rfl
    rw [h.newly n rfl] at hn
    cases hn
  bound m hm hmn := h.bound m hm (Nat.le_succ_of_le hmn)
  newly := h.newly

theorem now (hn : (σ.moment ops (n + 1)).isLocallyDefined env name = true)
    (hnew : (σ.moment ops n).isLocallyDefined env name = false) :
    σ.BoundSince ops env (n + 1) name (n + 1) where
  le := Nat.le_refl _
  bound _ hm hmn := Nat.le_antisymm hm hmn ▸ hn
  newly _ hj := Nat.succ.inj hj ▸ hnew

end BoundSince

theorem exists_boundSince (h : (σ.moment ops n).isLocallyDefined env name = true) :
    ∃ k, σ.BoundSince ops env n name k := by
  induction n with
  | zero => exact ⟨0, Nat.le_refl 0, fun m _ hm => Nat.le_zero.mp hm ▸ h, nofun⟩
  | succ n ih =>
      cases hn : (σ.moment ops n).isLocallyDefined env name with
      | true =>
          obtain ⟨k, hk⟩ := ih hn
          exact ⟨k, hk.later h⟩
      | false => exact ⟨n + 1, .now h hn⟩

theorem BoundBefore.later (h : σ.BoundBefore ops env n a b)
    (ha : a ∈ (σ.moment ops n).localNames env) (hb : b ∈ (σ.moment ops n).localNames env) :
    σ.BoundBefore ops env (n + 1) a b :=
  fun k l hk hl =>
    h k l (hk.earlier (mem_localNames_iff.mp ha)) (hl.earlier (mem_localNames_iff.mp hb))

theorem boundBefore_new (ha : a ∈ (σ.moment ops n).localNames env)
    (hb : b ∉ (σ.moment ops n).localNames env) : σ.BoundBefore ops env (n + 1) a b := by
  intro k l hk hl
  left
  have hkn := (hk.earlier (mem_localNames_iff.mp ha)).le
  by_contra hlt
  exact hb (mem_localNames_iff.mpr (hl.bound n (by omega) (Nat.le_succ n)))

theorem pairwise_boundBefore (σ : Store) (ops : List Operation) (env : Env) (n : Nat) :
    ((σ.moment ops n).localNames env).Pairwise (σ.BoundBefore ops env n) := by
  induction n with
  | zero =>
      refine List.pairwise_iff_forall_sublist.mpr fun hab k l hk hl => .inr ?_
      exact ⟨Nat.le_zero.mp hk.le, Nat.le_zero.mp hl.le, hab⟩
  | succ n ih =>
      have hold : ((σ.moment ops n).localNames env).Pairwise (σ.BoundBefore ops env (n + 1)) :=
        ih.imp_of_mem fun ha hb h => h.later ha hb
      obtain ⟨name, h⟩ := σ.relists_moment ops env n
      generalize hnames : (σ.moment ops (n + 1)).localNames env = names at h
      cases h with
      | kept => exact hold
      | added hname =>
          refine List.pairwise_append.mpr ⟨hold, List.pairwise_singleton _ _, fun a ha b hb => ?_⟩
          exact boundBefore_new ha (List.mem_singleton.mp hb ▸ hname)
      | removed => exact hold.filter _

theorem keepsHistory (hσ : σ.Keyed) (hops : ∀ n, (σ.moment ops n).Acyclic) :
    σ.KeepsHistory ops where
  ends n op _ := perform_ne_diverged (hops n) op
  nodup n env := nodup_moment hσ ops env n
  mem_iff n env name := mem_localNames_iff
  since n env name h := by
    obtain ⟨k, hk⟩ := exists_boundSince (mem_localNames_iff.mp h)
    exact ⟨k, hk, fun l hl => hk.unique hl⟩
  ordered n env := σ.pairwise_boundBefore ops env n
  places n := (σ.moment ops n).placesNames
  removes n env name := (σ.moment ops n).removes env name

theorem Backward.next (h : σ.Backward) (hop : ∀ v, op.value? = some v → ¬ v.IsReference) :
    (σ.next op).Backward := by
  intro j name target env hmem
  rcases σ.frame_next op j with hj | ⟨name', v, hv, hj⟩ | ⟨name', hj⟩
  · exact h j name target env (hj ▸ hmem)
  · rcases Frame.mem_insert (hj ▸ hmem) with heq | hold
    · cases heq
      exact absurd ⟨target, env, rfl⟩ (hop _ hv)
    · exact h j name target env hold
  · exact h j name target env (Frame.mem_erase (hj ▸ hmem))

theorem acyclic_moment (hσ : σ.Backward)
    (hops : ∀ op ∈ ops, ∀ v, op.value? = some v → ¬ v.IsReference) (n : Nat) :
    (σ.moment ops n).Acyclic := by
  refine acyclic_of_backward ?_
  induction n with
  | zero => exact hσ
  | succ n ih =>
      rcases σ.moment_succ ops n with h | ⟨op, hop, h⟩
      · exact h ▸ ih
      · exact h ▸ ih.next (hops op hop)

end Run

def sharing : Store where
  frames := #[⟨[("a", .number 1), ("b", .number 2)]⟩, ⟨[("r", .reference "a" .globals)]⟩]

def sharingScope : Env :=
  .scope .lexical 1 .globals

def story : List Operation :=
  [.define sharingScope "x" (.number 3), .define .globals "c" (.number 4),
    .assign sharingScope "r" (.number 5), .unbind sharingScope "b",
    .define .globals "b" (.number 6), .define sharingScope "x" (.number 7),
    .assign sharingScope "nowhere" (.number 8), .unbindLocally sharingScope "r"]

theorem keepsHistory_story :
    sharing.Keyed ∧ (∀ n, (sharing.moment story n).Acyclic) ∧
      (sharing.moment story 8).localNames .globals = ["a", "c", "b"] ∧
      (sharing.moment story 8).localNames sharingScope = ["x"] ∧
      sharing.KeepsHistory story := by
  have hkeyed : sharing.Keyed := keyed_of_frames (by decide)
  have hbackward : sharing.Backward := by
    intro i name target env hmem
    match i with
    | 0 => simp [sharing, frame] at hmem
    | 1 =>
        obtain ⟨-, -, rfl⟩ : name = "r" ∧ target = "a" ∧ env = .globals := by
          simpa [sharing, frame] using hmem
        exact Env.below_scope Nat.zero_lt_one fun _ h => absurd h List.not_mem_nil
    | i + 2 =>
        rw [frame_of_size_le (Nat.le_add_left 2 i)] at hmem
        cases hmem
  have hstory : ∀ op ∈ story, ∀ v, op.value? = some v → ¬ v.IsReference := by
    rintro op hop v hv ⟨target, scope, rfl⟩
    simp only [story, List.mem_cons, List.not_mem_nil, or_false] at hop
    rcases hop with rfl | rfl | rfl | rfl | rfl | rfl | rfl | rfl <;> cases hv
  have hacyclic := acyclic_moment hbackward hstory
  exact ⟨hkeyed, hacyclic, by rfl, by rfl, keepsHistory hkeyed hacyclic⟩

end Store

end PassingLisp
