import PassingLisp.Interpreter
import PassingLisp.Proofs.References

namespace PassingLisp

namespace Error

def Raisable : Error → Prop
  | parse _ | formConflict _ => False
  | arity expected got _ => expected ≠ got
  | _ => True

theorem raisable_locate {e : Error} (h : e.Raisable) (expr : Value) : (e.locate expr).Raisable := by
  cases e <;> trivial

end Error

inductive Role where
  | code
  | text
  | result
  | element
  | argument
  | slot (frame : Nat)

namespace Value

def Plain : Value → Prop
  | number _ | symbol _ | string _ | bool _ | form _ | unspecified => True
  | _ => False

def IsDelayed (v : Value) : Prop :=
  ∃ id expr env, v = delayed id expr env

end Value

/-- What is allowed while there are so many frames: values in their roles, scopes to work in, names
to bind in a frame, errors to raise, frames to change, and depths other than the own one. -/
structure Discipline where
  Allows : Role → Nat → Value → Prop
  Scope : Nat → Env → Prop
  Binds : Nat → String → Prop
  Raises : Error → Prop
  Open : Nat → Prop
  Live : Nat → Prop
  AnyDepth : Prop

namespace Discipline

structure Laws (D : Discipline) : Prop where
  mono {n m r v} : n ≤ m → D.Allows r n v → D.Allows r m v
  scope_mono {n m env} : n ≤ m → D.Scope n env → D.Scope m env
  live_mono {n m} : n ≤ m → D.Live n → D.Live m
  raises {e} : e.Raisable → D.Raises e
  raises_locate {e} : D.Raises e → ∀ expr, D.Raises (e.locate expr)
  code_text {n v} : D.Allows .code n v → D.Allows .text n v
  code_result {n v} : D.Allows .code n v → D.Allows .result n v
  code_elements {n es} : D.Allows .code n (.list es) → ∀ e ∈ es, D.Allows .code n e
  code_delayed {n id e env} :
    D.Allows .code n (.delayed id e env) → D.Allows .text n e ∧ D.Scope n env
  plain {n v} : v.Plain → D.Allows .result n v
  result_list {n vs} : D.Allows .result n (.list vs) ↔ ∀ v ∈ vs, D.Allows .element n v
  result_element {n v} : D.Allows .result n v → D.Allows .element n v
  element_result {n v} : D.Allows .element n v → ¬ v.IsDelayed → D.Allows .result n v
  element_delayed {n id e env} :
    D.Allows .element n (.delayed id e env) ↔ D.Allows .text n e ∧ D.Scope n env
  closure {n isForm specs ps body env} : (∀ s ∈ specs, D.Allows .code n s) →
    Form.params isForm specs = .ok ps → (∀ p ∈ ps, ∀ i, D.Binds i p.name) →
    (∀ e ∈ body, D.Allows .text n e) → D.Scope n env → D.Allows .result n (.procedure ps body env)
  procedure_text {n ps body env} :
    D.Allows .result n (.procedure ps body env) → ∀ e ∈ body, D.Allows .text n e
  procedure_scope {n ps body env} : D.Allows .result n (.procedure ps body env) → D.Scope n env
  procedure_binds {n m ps body env} : D.Allows .result n (.procedure ps body env) → D.Live n →
    n ≤ m → ∀ p ∈ ps, D.Binds m p.name
  result_argument {n v} : D.Allows .result n v → D.Allows .argument n v
  delayed_argument {n id e env} :
    D.Allows .text n e → D.Scope n env → D.Allows .argument n (.delayed id e env)
  reference_argument {n name env} : D.Scope n env → D.Allows .argument n (.reference name env)
  argument_slot {n v} : D.Live n → D.Allows .argument n v → D.Allows (.slot n) (n + 1) v
  result_slot {n i v} : D.Allows .result n v → D.Allows (.slot i) n v
  slot_reference {n i name env} : D.Allows (.slot i) n (.reference name env) → D.Scope n env
  slot_element {n i v} : D.Allows (.slot i) n v → ¬ v.IsReference → D.Allows .element n v
  scope_call {n env} : D.Scope n env → D.Scope (n + 1) (.scope .lexical n env)
  scope_stack {n env} : D.Scope n env → D.Scope (n + 1) (.scope .dynamic n env)
  scope_open {n env} : D.Scope n env → ∀ i ∈ env.frames, D.Open i

def Expands (D : Discipline) : Prop :=
  ∀ {n clauses e}, (∀ c ∈ clauses, D.Allows .code n c) → Form.condToIf clauses = .ok e →
    D.Allows .code n e

def Answers (D : Discipline) (n : Nat) : Except Error Value → Prop
  | .ok v => D.Allows .element n v
  | .error e => D.Raises e

def Replies (D : Discipline) (b : Builtin) : Prop :=
  ∀ {n args}, (∀ a ∈ args, D.Allows .result n a) → D.Answers n (b.call args).result

structure Admits (D : Discipline) (ev : Evaluator) : Prop where
  binds {name} : ev.isForm name = false → ∀ i, D.Binds i name
  replies {index b} : ev.builtin? index = some b → D.Replies b

def anything : Discipline where
  Allows _ _ _ := True
  Scope _ _ := True
  Binds _ _ := True
  Raises _ := True
  Open _ := True
  Live _ := True
  AnyDepth := True

theorem laws_anything : anything.Laws := by
  constructor <;> simp [anything]

theorem expands_anything : anything.Expands :=
  fun _ _ => trivial

theorem replies_anything (b : Builtin) : anything.Replies b := by
  intro n args _
  cases (b.call args).result <;> trivial

variable {D D' : Discipline}

def both (D D' : Discipline) : Discipline where
  Allows r n v := D.Allows r n v ∧ D'.Allows r n v
  Scope n env := D.Scope n env ∧ D'.Scope n env
  Binds i name := D.Binds i name ∧ D'.Binds i name
  Raises e := D.Raises e ∧ D'.Raises e
  Open i := D.Open i ∧ D'.Open i
  Live n := D.Live n ∧ D'.Live n
  AnyDepth := D.AnyDepth ∧ D'.AnyDepth

theorem Laws.both (h : D.Laws) (h' : D'.Laws) : (D.both D').Laws where
  mono hnm hv := ⟨h.mono hnm hv.1, h'.mono hnm hv.2⟩
  scope_mono hnm he := ⟨h.scope_mono hnm he.1, h'.scope_mono hnm he.2⟩
  live_mono hnm hn := ⟨h.live_mono hnm hn.1, h'.live_mono hnm hn.2⟩
  raises he := ⟨h.raises he, h'.raises he⟩
  raises_locate he expr := ⟨h.raises_locate he.1 expr, h'.raises_locate he.2 expr⟩
  code_text hv := ⟨h.code_text hv.1, h'.code_text hv.2⟩
  code_result hv := ⟨h.code_result hv.1, h'.code_result hv.2⟩
  code_elements hv e he := ⟨h.code_elements hv.1 e he, h'.code_elements hv.2 e he⟩
  code_delayed hv := by
    obtain ⟨ht, he⟩ := h.code_delayed hv.1
    obtain ⟨ht', he'⟩ := h'.code_delayed hv.2
    exact ⟨⟨ht, ht'⟩, he, he'⟩
  plain hv := ⟨h.plain hv, h'.plain hv⟩
  result_list := by
    intro n vs
    simp only [Discipline.both, h.result_list, h'.result_list, imp_and, forall_and]
  result_element hv := ⟨h.result_element hv.1, h'.result_element hv.2⟩
  element_result hv hd := ⟨h.element_result hv.1 hd, h'.element_result hv.2 hd⟩
  element_delayed := by
    intro n id e env
    simp only [Discipline.both, h.element_delayed, h'.element_delayed]
    exact and_and_and_comm
  closure hs hps hb ht he :=
    ⟨h.closure (fun s hmem => (hs s hmem).1) hps (fun p hp i => (hb p hp i).1)
      (fun e hmem => (ht e hmem).1) he.1,
    h'.closure (fun s hmem => (hs s hmem).2) hps (fun p hp i => (hb p hp i).2)
      (fun e hmem => (ht e hmem).2) he.2⟩
  procedure_text hf e he := ⟨h.procedure_text hf.1 e he, h'.procedure_text hf.2 e he⟩
  procedure_scope hf := ⟨h.procedure_scope hf.1, h'.procedure_scope hf.2⟩
  procedure_binds hf hn hnm p hp :=
    ⟨h.procedure_binds hf.1 hn.1 hnm p hp, h'.procedure_binds hf.2 hn.2 hnm p hp⟩
  result_argument hv := ⟨h.result_argument hv.1, h'.result_argument hv.2⟩
  delayed_argument ht he := ⟨h.delayed_argument ht.1 he.1, h'.delayed_argument ht.2 he.2⟩
  reference_argument he := ⟨h.reference_argument he.1, h'.reference_argument he.2⟩
  argument_slot hn hv := ⟨h.argument_slot hn.1 hv.1, h'.argument_slot hn.2 hv.2⟩
  result_slot hv := ⟨h.result_slot hv.1, h'.result_slot hv.2⟩
  slot_reference hv := ⟨h.slot_reference hv.1, h'.slot_reference hv.2⟩
  slot_element hv hr := ⟨h.slot_element hv.1 hr, h'.slot_element hv.2 hr⟩
  scope_call he := ⟨h.scope_call he.1, h'.scope_call he.2⟩
  scope_stack he := ⟨h.scope_stack he.1, h'.scope_stack he.2⟩
  scope_open he i hi := ⟨h.scope_open he.1 i hi, h'.scope_open he.2 i hi⟩

theorem Expands.both (h : D.Expands) (h' : D'.Expands) : (D.both D').Expands :=
  fun hc he => ⟨h (fun c hmem => (hc c hmem).1) he, h' (fun c hmem => (hc c hmem).2) he⟩

end Discipline

end PassingLisp
