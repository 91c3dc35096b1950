import PassingLisp.Proofs.Builtins
import PassingLisp.Proofs.Throughout

namespace PassingLisp

namespace Value

inductive Readable : Value → Prop where
  | number (n : Int64) : Readable (number n)
  | symbol (name : String) : Readable (symbol name)
  | string (text : String) : Readable (string text)
  | bool (b : Bool) : Readable (bool b)
  | list {vs : List Value} (h : ∀ v ∈ vs, Readable v) : Readable (list vs)

inductive Held (n : Nat) : Value → Prop where
  | plain {v : Value} (h : v.Plain) : Held n v
  | builtin (name : String) (index : Nat) : Held n (builtin name index)
  | list {vs : List Value} (h : ∀ v ∈ vs, Held n v) : Held n (list vs)
  | procedure {params : List Param} {body : List Value} {env : Env}
      (hb : ∀ e ∈ body, e.Readable) (he : env.Below n) : Held n (procedure params body env)
  | delayed {id : Nat} {expr : Value} {env : Env} (ht : expr.Readable) (he : env.Below n) :
      Held n (delayed id expr env)

variable {n m : Nat} {u v : Value}

theorem readable_list_iff {vs : List Value} : (list vs).Readable ↔ ∀ v ∈ vs, v.Readable := by
  constructor
  · intro h
    cases h with
    | list h => exact h
  · exact .list

theorem held_of_mem {vs : List Value} (h : (list vs).Held n) : ∀ v ∈ vs, v.Held n := by
  cases h with
  | plain h => exact absurd h id
  | list h => exact h

theorem held_procedure_iff {params : List Param} {body : List Value} {env : Env} :
    (procedure params body env).Held n ↔ (∀ e ∈ body, e.Readable) ∧ env.Below n := by
  constructor
  · intro h
    cases h with
    | plain h => exact absurd h id
    | procedure hb he => exact ⟨hb, he⟩
  · rintro ⟨hb, he⟩
    exact .procedure hb he

theorem held_delayed_iff {id : Nat} {expr : Value} {env : Env} :
    (delayed id expr env).Held n ↔ expr.Readable ∧ env.Below n := by
  constructor
  · intro h
    cases h with
    | plain h => exact absurd h (fun h => h)
    | delayed ht he => exact ⟨ht, he⟩
  · rintro ⟨ht, he⟩
    exact .delayed ht he

theorem Held.mono (h : v.Held n) (hnm : n ≤ m) : v.Held m := by
  induction h with
  | plain h => exact .plain h
  | builtin name index => exact .builtin name index
  | list _ ih => exact .list ih
  | procedure hb he => exact .procedure hb (he.mono hnm)
  | delayed ht he => exact .delayed ht (he.mono hnm)

theorem Readable.held (h : v.Readable) : v.Held n := by
  induction h with
  | list _ ih => exact .list ih
  | _ => exact .plain trivial

theorem Readable.not_isDelayed (h : v.Readable) : ¬ v.IsDelayed := by
  rintro ⟨id, expr, env, rfl⟩
  cases h

theorem Held.not_isReference (h : v.Held n) : ¬ v.IsReference := by
  rintro ⟨name, env, rfl⟩
  cases h with
  | plain h => exact h

theorem Held.ne_eof (h : v.Held n) : v ≠ .eof := by
  rintro rfl
  cases h with
  | plain h => exact h

theorem Held.not_within (h : v.Held n) (hr : u.IsReference) : ¬ u.Within v := by
  intro hw
  induction hw with
  | here => exact h.not_isReference hr
  | element hv _ ih => exact ih (held_of_mem h _ hv)
  | body he _ ih => exact ih ((held_procedure_iff.mp h).1 _ he).held
  | expr _ ih => exact ih (held_delayed_iff.mp h).1.held

end Value

namespace Form

theorem readable_condToIf {clauses : List Value} {e : Value} (hc : ∀ c ∈ clauses, c.Readable)
    (h : condToIf clauses = .ok e) : e.Readable :=
  condToIf_of_parts (.symbol _) (.symbol _) (.bool false) Value.readable_list_iff hc h

end Form

namespace Discipline

def layers (Code : Value → Prop) : Discipline where
  Allows
    | .code, _, v => Code v
    | .text, _, v => v.Readable
    | .result, n, v => v.Held n ∧ ¬ v.IsDelayed
    | .element, n, v => v.Held n
    | .argument, n, v => v.Held n ∨ ∃ name env, v = .reference name env ∧ env.Below n
    | .slot i, n, v => (v.Held n ∧ ¬ v.IsDelayed) ∨
        i ≠ 0 ∧ (v.Held n ∨ ∃ name env, v = .reference name env ∧ env.Below i ∧ env.Below n)
  Scope n env := env.Below n
  Binds _ _ := True
  Raises := Error.Raisable
  Open _ := True
  Live n := 0 < n
  AnyDepth := False

abbrev reading : Discipline :=
  layers Value.Readable

variable {Code : Value → Prop}

theorem laws_layers (hc : ∀ {v}, Code v → v.Readable)
    (hl : ∀ {es}, Code (.list es) → ∀ e ∈ es, Code e) : (layers Code).Laws where
  mono {n m r v} hnm h := by
    cases r with
    | code => exact h
    | text => exact h
    | result => exact ⟨h.1.mono hnm, h.2⟩
    | element => exact h.mono hnm
    | argument =>
        rcases h with h | ⟨name, env, rfl, he⟩
        · exact .inl (h.mono hnm)
        · exact .inr ⟨name, env, rfl, he.mono hnm⟩
    | slot i =>
        rcases h with ⟨h, hd⟩ | ⟨hi, h | ⟨name, env, rfl, hei, hen⟩⟩
        · exact .inl ⟨h.mono hnm, hd⟩
        · exact .inr ⟨hi, .inl (h.mono hnm)⟩
        · exact .inr ⟨hi, .inr ⟨name, env, rfl, hei, hen.mono hnm⟩⟩
  scope_mono hnm h := h.mono hnm
  live_mono hnm h := Nat.lt_of_lt_of_le h hnm
  raises h := h
  raises_locate h expr := Error.raisable_locate h expr
  code_text h := hc h
  code_result h := ⟨(hc h).held, (hc h).not_isDelayed⟩
  code_elements h := hl h
  code_delayed h := by cases hc h
  plain {n v} h := by
    refine ⟨.plain h, ?_⟩
    rintro ⟨id, expr, env, rfl⟩
    exact h
  result_list := by
    intro n vs
    constructor
    · intro h
      exact Value.held_of_mem h.1
    · intro h
      exact ⟨.list h, fun ⟨id, expr, env, heq⟩ => nomatch heq⟩
  result_element h := h.1
  element_result h hd := ⟨h, hd⟩
  element_delayed := Value.held_delayed_iff
  closure _ _ _ hb he := ⟨.procedure hb he, fun ⟨id, expr, env, heq⟩ => nomatch heq⟩
  procedure_text h := (Value.held_procedure_iff.mp h.1).1
  procedure_scope h := (Value.held_procedure_iff.mp h.1).2
  procedure_binds _ _ _ _ _ := trivial
  result_argument h := .inl h.1
  delayed_argument ht he := .inl (.delayed ht he)
  reference_argument he := .inr ⟨_, _, rfl, he⟩
  argument_slot {n v} hn h := by
    refine .inr ⟨Nat.ne_of_gt hn, ?_⟩
    rcases h with h | ⟨name, env, rfl, he⟩
    · exact .inl (h.mono (Nat.le_succ n))
    · exact .inr ⟨name, env, rfl, he, he.mono (Nat.le_succ n)⟩
  result_slot h := .inl h
  slot_reference {n i name env} h := by
    rcases h with ⟨h, _⟩ | ⟨_, h | ⟨_, _, heq, _, he⟩⟩
    · exact absurd ⟨name, env, rfl⟩ h.not_isReference
    · exact absurd ⟨name, env, rfl⟩ h.not_isReference
    · cases heq
      exact he
  slot_element {n i v} h hr := by
    rcases h with ⟨h, _⟩ | ⟨_, h | ⟨name, env, heq, _, _⟩⟩
    · exact h
    · exact h
    · exact absurd ⟨name, env, heq⟩ hr
  scope_call h := Env.below_scope (Nat.lt_succ_self _) (h.mono (Nat.le_succ _))
  scope_stack h := Env.below_scope (Nat.lt_succ_self _) (h.mono (Nat.le_succ _))
  scope_open _ _ _ := trivial

end Discipline

end PassingLisp
