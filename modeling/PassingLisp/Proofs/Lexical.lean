import PassingLisp.Proofs.Footprint
import PassingLisp.Proofs.Unaware

namespace PassingLisp

namespace Value

def Untagged (v : Value) : Prop :=
  ¬ (symbol "dynamic").Within v

def Static : Value → Prop
  | procedure params body _ => (∀ p ∈ params, p.mode ≠ .dynamic) ∧ ∀ e ∈ body, e.Untagged
  | delayed _ expr _ => expr.Untagged
  | _ => True

def Lexical (v : Value) : Prop :=
  ∀ u : Value, u.Within v → u.Static

variable {v : Value} {vs : List Value}

theorem untagged_list_iff : (list vs).Untagged ↔ ∀ v ∈ vs, v.Untagged := by
  constructor
  · intro h v hv hw
    exact h (.element hv hw)
  · intro h hw
    cases hw with
    | element hv hw => exact h _ hv hw

theorem lexical_list_iff : (list vs).Lexical ↔ ∀ v ∈ vs, v.Lexical := by
  constructor
  · intro h v hv u hw
    exact h u (.element hv hw)
  · intro h u hw
    cases hw with
    | here => trivial
    | element hv hw => exact h _ hv u hw

theorem lexical_procedure_iff {params : List Param} {body : List Value} {env : Env} :
    (procedure params body env).Lexical ↔
      (∀ p ∈ params, p.mode ≠ .dynamic) ∧ ∀ e ∈ body, e.Lexical ∧ e.Untagged := by
  constructor
  · intro h
    obtain ⟨hparams, hbody⟩ : (procedure params body env).Static := h _ .here
    exact ⟨hparams, fun e he => ⟨fun u hw => h u (.body he hw), hbody e he⟩⟩
  · rintro ⟨hparams, hbody⟩ u hw
    cases hw with
    | here => exact ⟨hparams, fun e he => (hbody e he).2⟩
    | body he hw => exact (hbody _ he).1 u hw

theorem lexical_delayed_iff {id : Nat} {expr : Value} {env : Env} :
    (delayed id expr env).Lexical ↔ expr.Lexical ∧ expr.Untagged := by
  constructor
  · intro h
    exact ⟨fun u hw => h u (.expr hw), h _ .here⟩
  · rintro ⟨hexpr, htag⟩ u hw
    cases hw with
    | here => exact htag
    | expr hw => exact hexpr u hw

theorem lexical_builtin {name : String} {index : Nat} : (builtin name index).Lexical := by
  intro u hw
  cases hw
  trivial

theorem lexical_reference {name : String} {env : Env} : (reference name env).Lexical := by
  intro u hw
  cases hw
  trivial

theorem Plain.lexical (h : v.Plain) : v.Lexical := by
  intro u hw
  cases hw with
  | here => cases v <;> trivial
  | _ => exact h.elim

theorem Plain.untagged (h : v.Plain) (hne : v ≠ symbol "dynamic") : v.Untagged := by
  intro hw
  cases hw with
  | here => exact hne rfl
  | _ => exact h.elim

theorem Readable.lexical (h : v.Readable) : v.Lexical := by
  induction h with
  | list _ ih => exact lexical_list_iff.mpr ih
  | _ => exact Plain.lexical trivial

end Value

namespace Form

theorem tag_within_of_paramOf {p : Param} {spec : Value} {tag : String}
    (h : paramOf spec = .ok p) (ht : p.mode.tag = some tag) : (Value.symbol tag).Within spec := by
  unfold paramOf at h
  split at h
  · cases h
    cases ht
  · rename_i tag' name
    split at h
    · rename_i mode hmode
      cases h
      rw [Mode.ofTag_eq_some_iff.mp hmode] at ht
      cases ht
      exact .element List.mem_cons_self .here
    · cases h
  · cases h
  · cases h

end Form

namespace Discipline

variable {Reached : Nat → Prop} {size m : Nat}

def lexical : Discipline where
  Allows
    | .code, _, v | .text, _, v => v.Lexical ∧ v.Untagged
    | _, _, v => v.Lexical
  Scope _ _ := True
  Binds _ _ := True
  Raises _ := True
  Open _ := True
  Live _ := True
  AnyDepth := True

theorem laws_lexical : lexical.Laws where
  mono {n m r v} _ h := by cases r <;> exact h
  scope_mono _ _ := trivial
  live_mono _ _ := trivial
  raises _ := trivial
  raises_locate _ _ := trivial
  code_text h := h
  code_result h := h.1
  code_elements h e he := ⟨Value.lexical_list_iff.mp h.1 e he, Value.untagged_list_iff.mp h.2 e he⟩
  code_delayed h := ⟨Value.lexical_delayed_iff.mp h.1, trivial⟩
  plain h := h.lexical
  result_list := Value.lexical_list_iff
  result_element h := h
  element_result h _ := h
  element_delayed := by
    intro n id e env
    simp only [lexical, and_true]
    exact Value.lexical_delayed_iff
  closure {n isForm specs ps body env} hs hps _ hb _ := by
    refine Value.lexical_procedure_iff.mpr ⟨fun p hp hmode => ?_, hb⟩
    obtain ⟨-, spec, hmem, hspec⟩ := Form.isForm_and_exists_spec hps p hp
    exact (hs spec hmem).2 (Form.tag_within_of_paramOf hspec (by rw [hmode]; rfl))
  procedure_text h := (Value.lexical_procedure_iff.mp h).2
  procedure_scope _ := trivial
  procedure_binds _ _ _ _ _ := trivial
  result_argument h := h
  delayed_argument ht _ := Value.lexical_delayed_iff.mpr ht
  reference_argument _ := Value.lexical_reference
  argument_slot _ h := h
  result_slot h := h
  slot_reference _ := trivial
  slot_element h _ := h
  scope_call _ := trivial
  scope_stack _ := trivial
  scope_open _ _ _ := trivial

theorem expands_lexical : lexical.Expands := by
  intro n clauses e hc h
  have hplain {v : Value} (hv : v.Plain) (hne : v ≠ .symbol "dynamic") :
      v.Lexical ∧ v.Untagged := ⟨hv.lexical, hv.untagged hne⟩
  have hlist {vs : List Value} : (Value.list vs).Lexical ∧ (Value.list vs).Untagged ↔
      ∀ v ∈ vs, v.Lexical ∧ v.Untagged := by
    simp only [Value.lexical_list_iff, Value.untagged_list_iff, imp_and, forall_and]
  exact Form.condToIf_of_parts (P := fun v => v.Lexical ∧ v.Untagged) (hplain trivial (by simp))
    (hplain trivial (by simp)) (hplain trivial (by simp)) hlist hc h

abbrev lexicalOver (Reached : Nat → Prop) (size : Nat) : Discipline :=
  (confined Reached size).both lexical

theorem laws_lexicalOver : (lexicalOver Reached size).Laws :=
  laws_confined.both laws_lexical

theorem expands_lexicalOver : (lexicalOver Reached size).Expands :=
  expands_confined.both expands_lexical

theorem amongCalls_lexicalOver : (lexicalOver Reached size).AmongCalls fun _ => False :=
  fun hf p hp hmode => (Value.lexical_procedure_iff.mp hf.2).1 p hp hmode

theorem governs_lexicalOver : (lexicalOver Reached size).Governs (Interpreter.limited m) where
  laws := laws_lexicalOver
  text_code := id
  hosts := Routine.hosts_core laws_lexicalOver expands_lexicalOver
  binds _ _ := ⟨trivial, trivial⟩
  replies := replies_of_core laws_lexicalOver

theorem unawareWithin_lexicalOver (fuel : Nat) :
    (lexicalOver Reached size).UnawareWithin (Interpreter.limited m) fuel :=
  governs_lexicalOver.unawareWithin amongCalls_lexicalOver
    (Straight.hosts_core laws_lexicalOver expands_lexicalOver) fuel

end Discipline

namespace Interpreter

open Discipline

variable {s : State} {e : Value} {env : Env}

theorem good_lexicalOver
    (h : ∀ i, s.Reaches e env i → ∀ b ∈ (s.store.frame i).bindings, b.2.Lexical) :
    (lexicalOver (s.Reaches e env) s.store.frames.size).Good s where
  live := ⟨trivial, trivial⟩
  stack := ⟨(good_reaches s e env).stack, trivial⟩
  slots i hi b hb := by
    obtain ⟨hbinds, hkeeps⟩ := (good_reaches s e env).slots i hi.1 b hb
    refine ⟨⟨hbinds, trivial⟩, hkeeps, ?_⟩
    rcases hi.1 with hi | hi
    · exact h i hi b hb
    · rw [Store.frame_of_size_le hi] at hb
      cases hb

theorem evalWithin_of_lexical (m fuel : Nat) (e : Value) (env : Env) (depth : Nat) (s : State)
    (stack : Env) (he : e.Lexical) (htag : e.Untagged)
    (hreach : ∀ i, State.Reaches { s with stack := .empty } e env i →
      ∀ b ∈ (s.store.frame i).bindings, b.2.Lexical) :
    (limited m).evalWithin fuel e env depth { s with stack := stack } =
      Effect.leave stack ((limited m).evalWithin fuel e env depth s) := by
  let alone : State := { s with stack := .empty }
  have hcode : (lexicalOver (alone.Reaches e env) s.store.frames.size).Allows .code
      s.store.frames.size e :=
    ⟨fun scope hk => ⟨Nat.le_refl _, fun i hi => .inl (.code hk hi)⟩, he, htag⟩
  have hscope : (lexicalOver (alone.Reaches e env) s.store.frames.size).Scope
      s.store.frames.size env := ⟨⟨Nat.le_refl _, fun i hi => .inl (.scope hi)⟩, trivial⟩
  have hgood : (lexicalOver (alone.Reaches e env) s.store.frames.size).Good alone :=
    good_lexicalOver hreach
  exact (unawareWithin_lexicalOver fuel hgood hcode hscope).of_stack stack

def overlaid : State where
  store := (State.initial.store.enter .empty
    (.ofList [("list", .procedure [⟨"x", .dynamic⟩] [.symbol "x"] .empty)])).2
  stack := .scope .dynamic 1 .globals

def doubling : Value :=
  .list [.list [.symbol "lambda", .list [.list [.symbol "delayed", .symbol "x"]],
    .list [.symbol "list", .symbol "x", .symbol "x"]], .list [.symbol "+", .number 1, .number 2]]

theorem readable_doubling : doubling.Readable := by
  simp [doubling, Value.readable_list_iff, Value.Readable.symbol, Value.Readable.number]

theorem untagged_doubling : doubling.Untagged := by
  have hsymbol {name : String} (h : name ≠ "dynamic") : (Value.symbol name).Untagged :=
    Value.Plain.untagged trivial (by simpa using h)
  have hnumber (n : Int64) : (Value.number n).Untagged := Value.Plain.untagged trivial (by simp)
  simp [doubling, Value.untagged_list_iff, hsymbol, hnumber]

theorem lexical_of_reaches_overlaid {i : Nat}
    (h : State.Reaches { overlaid with stack := .empty } doubling .globals i) :
    ∀ b ∈ (overlaid.store.frame i).bindings, b.2.Lexical := by
  let alone : State := { overlaid with stack := .empty }
  have hcore : alone.store.frame 0 = State.coreFrame :=
    State.initial.store.frame_enter_old Nat.zero_lt_one .empty _
  have hstack : ∀ j ∈ alone.stack.frames, j = 0 := by
    intro j hj
    cases hj
  have hi : i = 0 := eq_zero_of_reaches hcore hstack readable_doubling h
  subst hi
  intro b hb
  rcases State.mem_coreFrame (hcore ▸ hb) with ⟨entry, _, index, rfl⟩ | rfl
  · exact Value.lexical_builtin
  · exact Value.lexical_list_iff.mpr fun _ hv => nomatch hv

theorem evalWithin_of_lexical_overlaid :
    (doubling.Lexical ∧ doubling.Untagged ∧
      ∀ i, State.Reaches { overlaid with stack := .empty } doubling .globals i →
        ∀ b ∈ (overlaid.store.frame i).bindings, b.2.Lexical) ∧
      (limited 8).evalWithin ample doubling .globals 0 { overlaid with stack := .globals } =
        Effect.leave .globals ((limited 8).evalWithin ample doubling .globals 0 overlaid) := by
  have hlexical := readable_doubling.lexical
  have hreach (i : Nat)
      (h : State.Reaches { overlaid with stack := .empty } doubling .globals i) :=
    lexical_of_reaches_overlaid h
  exact ⟨⟨hlexical, untagged_doubling, hreach⟩, evalWithin_of_lexical 8 ample doubling .globals 0
    overlaid .globals hlexical untagged_doubling hreach⟩

end Interpreter

end PassingLisp
