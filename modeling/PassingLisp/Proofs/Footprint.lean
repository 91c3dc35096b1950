import PassingLisp.Proofs.Reachable

namespace PassingLisp

namespace Value

inductive Keeps (scope : Env) : Value → Prop where
  | procedure {params : List Param} {body : List Value} : Keeps scope (procedure params body scope)
  | reference {name : String} : Keeps scope (reference name scope)
  | delayed {id : Nat} {expr : Value} : Keeps scope (delayed id expr scope)
  | element {v : Value} {vs : List Value} (hv : v ∈ vs) (h : Keeps scope v) : Keeps scope (list vs)
  | body {e : Value} {params : List Param} {body : List Value} {env : Env} (he : e ∈ body)
      (h : Keeps scope e) : Keeps scope (procedure params body env)
  | expr {e : Value} {id : Nat} {env : Env} (h : Keeps scope e) : Keeps scope (delayed id e env)

def Keeping (P : Env → Prop) (v : Value) : Prop :=
  ∀ scope, v.Keeps scope → P scope

variable {P Q : Env → Prop} {v : Value} {vs : List Value} {env : Env}

theorem Keeping.mono (h : v.Keeping P) (hPQ : ∀ {env}, P env → Q env) : v.Keeping Q :=
  fun scope hk => hPQ (h scope hk)

theorem Plain.keeping (h : v.Plain) : v.Keeping P := by
  intro scope hk
  cases hk <;> exact absurd h id

theorem keeping_list_iff : (list vs).Keeping P ↔ ∀ v ∈ vs, v.Keeping P := by
  constructor
  · intro h v hv scope hk
    exact h scope (.element hv hk)
  · intro h scope hk
    cases hk with
    | element hv hk => exact h _ hv scope hk

theorem keeping_procedure_iff {params : List Param} {body : List Value} :
    (procedure params body env).Keeping P ↔ (∀ e ∈ body, e.Keeping P) ∧ P env := by
  constructor
  · intro h
    exact ⟨fun e he scope hk => h scope (.body he hk), h env .procedure⟩
  · rintro ⟨hb, he⟩ scope hk
    cases hk with
    | procedure => exact he
    | body he hk => exact hb _ he scope hk

theorem keeping_delayed_iff {id : Nat} {expr : Value} :
    (delayed id expr env).Keeping P ↔ expr.Keeping P ∧ P env := by
  constructor
  · intro h
    exact ⟨fun scope hk => h scope (.expr hk), h env .delayed⟩
  · rintro ⟨ht, he⟩ scope hk
    cases hk with
    | delayed => exact he
    | expr hk => exact ht scope hk

theorem keeping_reference_iff {name : String} : (reference name env).Keeping P ↔ P env := by
  constructor
  · intro h
    exact h env .reference
  · intro he scope hk
    cases hk
    exact he

theorem Readable.keeping (h : v.Readable) : v.Keeping P := by
  induction h with
  | list _ ih => exact keeping_list_iff.mpr ih
  | _ => exact Plain.keeping trivial

end Value

/-- A frame that an evaluation of `e` in `env` can get at: of the scope, of the calls in progress,
of a scope in the expression, or of a scope in what another such frame binds. -/
inductive State.Reaches (s : State) (e : Value) (env : Env) : Nat → Prop where
  | scope {i : Nat} (hi : i ∈ env.frames) : Reaches s e env i
  | stack {i : Nat} (hi : i ∈ s.stack.frames) : Reaches s e env i
  | code {scope : Env} {i : Nat} (hk : e.Keeps scope) (hi : i ∈ scope.frames) : Reaches s e env i
  | slot {j i : Nat} {b : String × Value} {scope : Env} (hj : Reaches s e env j)
      (hb : b ∈ (s.store.frame j).bindings) (hk : b.2.Keeps scope) (hi : i ∈ scope.frames) :
      Reaches s e env i

namespace Discipline

def confined (Reached : Nat → Prop) (size : Nat) : Discipline where
  Allows _ n v := v.Keeping fun env => size ≤ n ∧ ∀ i ∈ env.frames, Reached i ∨ size ≤ i
  Scope n env := size ≤ n ∧ ∀ i ∈ env.frames, Reached i ∨ size ≤ i
  Binds _ _ := True
  Raises _ := True
  Open i := Reached i ∨ size ≤ i
  Live _ := True
  AnyDepth := True

variable {Reached : Nat → Prop} {size n : Nat} {env : Env} {link : Link}

theorem confined_scope (h : (confined Reached size).Scope n env) :
    (confined Reached size).Scope (n + 1) (.scope link n env) := by
  obtain ⟨hn, he⟩ := h
  exact ⟨Nat.le_succ_of_le hn, List.forall_mem_cons.mpr ⟨.inr hn, he⟩⟩

theorem laws_confined : (confined Reached size).Laws where
  mono hnm h := h.mono fun he => ⟨Nat.le_trans he.1 hnm, he.2⟩
  scope_mono hnm h := ⟨Nat.le_trans h.1 hnm, h.2⟩
  live_mono _ _ := trivial
  raises _ := trivial
  raises_locate _ _ := trivial
  code_text h := h
  code_result h := h
  code_elements h := Value.keeping_list_iff.mp h
  code_delayed h := Value.keeping_delayed_iff.mp h
  plain h := h.keeping
  result_list := Value.keeping_list_iff
  result_element h := h
  element_result h _ := h
  element_delayed := Value.keeping_delayed_iff
  closure _ _ _ hb he := Value.keeping_procedure_iff.mpr ⟨hb, he⟩
  procedure_text h := (Value.keeping_procedure_iff.mp h).1
  procedure_scope h := (Value.keeping_procedure_iff.mp h).2
  procedure_binds _ _ _ _ _ := trivial
  result_argument h := h
  delayed_argument ht he := Value.keeping_delayed_iff.mpr ⟨ht, he⟩
  reference_argument he := Value.keeping_reference_iff.mpr he
  argument_slot _ h := h.mono fun he => ⟨Nat.le_succ_of_le he.1, he.2⟩
  result_slot h := h
  slot_reference h := Value.keeping_reference_iff.mp h
  slot_element h _ := h
  scope_call := confined_scope
  scope_stack := confined_scope
  scope_open h := h.2

theorem expands_confined : (confined Reached size).Expands :=
  Form.condToIf_of_parts (Value.Plain.keeping trivial) (Value.Plain.keeping trivial)
    (Value.Plain.keeping trivial) Value.keeping_list_iff

theorem governs_confined {m : Nat} :
    (confined Reached size).Governs (Interpreter.limited m) where
  laws := laws_confined
  text_code := id
  hosts := Routine.hosts_core laws_confined expands_confined
  binds _ _ := trivial
  replies := replies_of_core laws_confined

end Discipline

namespace Interpreter

open Discipline

variable {s : State} {e : Value} {env : Env}

theorem good_reaches (s : State) (e : Value) (env : Env) :
    (confined (s.Reaches e env) s.store.frames.size).Good s where
  live := trivial
  stack := ⟨Nat.le_refl _, fun _ hi => .inl (.stack hi)⟩
  slots j hj b hb := by
    refine ⟨trivial, fun scope hk => ⟨Nat.le_refl _, fun i hi => ?_⟩⟩
    rcases hj with hj | hj
    · exact .inl (.slot hj hb hk hi)
    · rw [Store.frame_of_size_le hj] at hb
      cases hb

theorem frame_eq_of_not_reaches (m fuel : Nat) (e : Value) (env : Env) (depth : Nat) (s : State)
    (i : Nat) (hi : i < s.store.frames.size) (h : ¬ s.Reaches e env i) :
    (stateAfter ((limited m).evalWithin fuel e env depth s)).store.frame i = s.store.frame i := by
  have hcode : (confined (s.Reaches e env) s.store.frames.size).Allows .code
      s.store.frames.size e := fun scope hk => ⟨Nat.le_refl _, fun i hi => .inl (.code hk hi)⟩
  have hscope : (confined (s.Reaches e env) s.store.frames.size).Scope s.store.frames.size env :=
    ⟨Nat.le_refl _, fun i hi => .inl (.scope hi)⟩
  have hgood := good_reaches s e env
  refine (governs_confined.ends fuel hgood hcode hscope).after.closed i hi fun ho => ?_
  rcases ho with ho | ho
  · exact h ho
  · omega

theorem eq_zero_of_reaches {i : Nat} (hcore : s.store.frame 0 = State.coreFrame)
    (hstack : ∀ i ∈ s.stack.frames, i = 0) (he : e.Readable) (h : s.Reaches e .globals i) :
    i = 0 := by
  induction h with
  | scope hi => exact List.mem_singleton.mp hi
  | stack hi => exact hstack _ hi
  | code hk _ => exact (he.keeping (P := fun _ => False) _ hk).elim
  | slot _ hb hk _ ih =>
      subst ih
      rw [hcore] at hb
      rcases State.mem_coreFrame hb with ⟨entry, _, index, rfl⟩ | rfl
      · cases hk
      · cases hk with
        | element hv _ => cases hv

def spare : State :=
  { State.initial with store := (State.initial.store.enter .empty (.ofList [("x", .number 7)])).2 }

def defining : Value :=
  .list [.symbol "define", .symbol "x", .number 8]

theorem frame_spare_zero : spare.store.frame 0 = State.coreFrame :=
  State.initial.store.frame_enter_old Nat.zero_lt_one .empty _

theorem eq_zero_of_reaches_spare {i : Nat} (h : spare.Reaches defining .globals i) : i = 0 := by
  have hdefining : defining.Readable := by
    simp [defining, Value.readable_list_iff, Value.Readable.symbol, Value.Readable.number]
  exact eq_zero_of_reaches frame_spare_zero (fun i hi => List.mem_singleton.mp hi) hdefining h

theorem frame_eq_spare :
    1 < spare.store.frames.size ∧ ¬ spare.Reaches defining .globals 1 ∧
      (stateAfter ((limited 8).evalWithin ample defining .globals 0 spare)).store.frame 1 =
        spare.store.frame 1 := by
  have hsize : 1 < spare.store.frames.size := by decide
  have hspare : ¬ spare.Reaches defining .globals 1 := fun h =>
    absurd (eq_zero_of_reaches_spare h) (by decide)
  exact ⟨hsize, hspare, frame_eq_of_not_reaches 8 ample defining .globals 0 spare 1 hsize hspare⟩

end Interpreter

end PassingLisp
