import PassingLisp.Proofs.Layers

namespace PassingLisp

namespace Value

def AllParams (P : List Param → Prop) (v : Value) : Prop :=
  ∀ params body env, (procedure params body env).Within v → P params

variable {P : List Param → Prop} {v : Value}

theorem Plain.allParams (h : v.Plain) : v.AllParams P := by
  intro params body env hw
  cases hw with
  | here => exact h.elim
  | _ => exact h.elim

theorem allParams_list_iff {vs : List Value} : (list vs).AllParams P ↔ ∀ v ∈ vs, v.AllParams P := by
  constructor
  · intro h v hv params body env hw
    exact h params body env (.element hv hw)
  · intro h params body env hw
    cases hw with
    | element hv hw => exact h _ hv params body env hw

theorem allParams_delayed_iff {id : Nat} {expr : Value} {env : Env} :
    (delayed id expr env).AllParams P ↔ expr.AllParams P := by
  constructor
  · intro h params body scope hw
    exact h params body scope (.expr hw)
  · intro h params body scope hw
    cases hw with
    | expr hw => exact h params body scope hw

theorem allParams_procedure_iff {params : List Param} {body : List Value} {env : Env} :
    (procedure params body env).AllParams P ↔ P params ∧ ∀ e ∈ body, e.AllParams P := by
  constructor
  · intro h
    exact ⟨h params body env .here, fun e he ps b scope hw => h ps b scope (.body he hw)⟩
  · rintro ⟨hps, hbody⟩ ps b scope hw
    cases hw with
    | here => exact hps
    | body he hw => exact hbody _ he ps b scope hw

theorem Readable.allParams (h : v.Readable) : v.AllParams P := by
  induction h with
  | list _ ih => exact allParams_list_iff.mpr ih
  | _ => exact Plain.allParams trivial

theorem allParams_builtin {name : String} {index : Nat} : (builtin name index).AllParams P := by
  intro params body env hw
  cases hw

theorem allParams_reference {name : String} {env : Env} : (reference name env).AllParams P := by
  intro params body scope hw
  cases hw

end Value

namespace Discipline

def withParams (P : List Param → Prop) (Names : String → Prop) : Discipline where
  Allows _ _ v := v.AllParams P
  Scope _ _ := True
  Binds _ name := Names name
  Raises _ := True
  Open _ := True
  Live _ := True
  AnyDepth := True

variable {P : List Param → Prop} {Names : String → Prop}

theorem laws_withParams
    (hmade : ∀ {isForm specs ps}, Form.params isForm specs = .ok ps → (∀ p ∈ ps, Names p.name) →
      P ps)
    (hnames : ∀ {ps}, P ps → ∀ p ∈ ps, Names p.name) : (withParams P Names).Laws where
  mono _ h := h
  scope_mono _ _ := trivial
  live_mono _ _ := trivial
  raises _ := trivial
  raises_locate _ _ := trivial
  code_text h := h
  code_result h := h
  code_elements h := Value.allParams_list_iff.mp h
  code_delayed h := ⟨Value.allParams_delayed_iff.mp h, trivial⟩
  plain h := h.allParams
  result_list := Value.allParams_list_iff
  result_element h := h
  element_result h _ := h
  element_delayed := by
    intro n id e env
    simp only [withParams, and_true]
    exact Value.allParams_delayed_iff
  closure _ hps hbinds hb _ :=
    Value.allParams_procedure_iff.mpr ⟨hmade hps fun p hp => hbinds p hp 0, hb⟩
  procedure_text h := (Value.allParams_procedure_iff.mp h).2
  procedure_scope _ := trivial
  procedure_binds h _ _ := hnames (Value.allParams_procedure_iff.mp h).1
  result_argument h := h
  delayed_argument h _ := Value.allParams_delayed_iff.mpr h
  reference_argument _ := Value.allParams_reference
  argument_slot _ h := h
  result_slot h := h
  slot_reference _ := trivial
  slot_element h _ := h
  scope_call _ := trivial
  scope_stack _ := trivial
  scope_open _ _ _ := trivial

theorem expands_withParams (P : List Param → Prop) (Names : String → Prop) :
    (withParams P Names).Expands :=
  fun hc h => Form.condToIf_of_parts (Value.Plain.allParams trivial) (Value.Plain.allParams trivial)
    (Value.Plain.allParams trivial) Value.allParams_list_iff hc h

end Discipline

end PassingLisp
