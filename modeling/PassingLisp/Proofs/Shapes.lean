import PassingLisp.Proofs.Routine.Forms

namespace PassingLisp

def Param.spec (p : Param) : Value :=
  match p.mode.tag with
  | some tag => .list [.symbol tag, .symbol p.name]
  | none => .symbol p.name

namespace Form

variable {isForm : String → Bool} {specs : List Value} {ps : List Param}

theorem paramOf_eq_ok_iff {spec : Value} {p : Param} : paramOf spec = .ok p ↔ spec = p.spec := by
  constructor
  · intro h
    unfold paramOf at h
    split at h
    · cases h
      rfl
    · split at h
      · rename_i mode hmode
        cases h
        simp only [Param.spec, Mode.ofTag_eq_some_iff.mp hmode]
      · cases h
    · cases h
    · cases h
  · rintro rfl
    obtain ⟨name, mode⟩ := p
    cases mode <;> rfl

theorem paramsAfter_eq_ok_iff {taken : List String} :
    paramsAfter isForm taken specs = .ok ps ↔
      specs = ps.map Param.spec ∧ (ps.map Param.name).Nodup ∧
        ∀ p ∈ ps, p.name ∉ taken ∧ isForm p.name = false := by
  constructor
  · intro h
    obtain ⟨hnodup, hnew⟩ := nodup_of_paramsAfter h
    refine ⟨?_, hnodup, fun p hp => ⟨hnew _ (List.mem_map_of_mem hp), isForm_of_paramsAfter h p hp⟩⟩
    clear hnodup hnew
    induction specs generalizing taken ps with
    | nil =>
        cases h
        rfl
    | cons spec specs ih =>
        obtain ⟨p, rest, hp, -, -, hrest, rfl⟩ := exists_of_paramsAfter_cons h
        rw [List.map_cons, ← ih hrest, ← paramOf_eq_ok_iff.mp hp]
  · rintro ⟨rfl, hnodup, hps⟩
    induction ps generalizing taken with
    | nil => rfl
    | cons p ps ih =>
        obtain ⟨hnew, hform⟩ := hps p List.mem_cons_self
        rw [List.map_cons, List.nodup_cons] at hnodup
        have hrest : paramsAfter isForm (p.name :: taken) (ps.map Param.spec) = .ok ps := by
          refine ih hnodup.2 fun q hq => ?_
          obtain ⟨hq', hqform⟩ := hps q (List.mem_cons_of_mem _ hq)
          refine ⟨fun hmem => ?_, hqform⟩
          rcases List.mem_cons.mp hmem with heq | hmem
          · exact hnodup.1 (heq ▸ List.mem_map_of_mem hq)
          · exact hq' hmem
        simp only [List.map_cons, paramsAfter, paramOf_eq_ok_iff.mpr rfl, hform, hnew, hrest,
          Except.map, Bool.false_eq_true, if_false]

def ParamList (isForm : String → Bool) (specs : List Value) : Prop :=
  ∃ ps : List Param, specs = ps.map Param.spec ∧ (ps.map Param.name).Nodup ∧
    ∀ p ∈ ps, isForm p.name = false

theorem params_eq_ok_iff : params isForm specs = .ok ps ↔
    specs = ps.map Param.spec ∧ (ps.map Param.name).Nodup ∧ ∀ p ∈ ps, isForm p.name = false := by
  simp only [params, paramsAfter_eq_ok_iff, List.not_mem_nil, not_false_eq_true, true_and]

theorem exists_params_iff : (∃ ps, params isForm specs = .ok ps) ↔ ParamList isForm specs :=
  exists_congr fun _ => params_eq_ok_iff

theorem makeProcedure_of_params (ev : Evaluator) (h : params ev.isForm specs = .ok ps)
    (body : List Value) (env : Env) :
    makeProcedure ev specs body env = pure (.procedure ps body env) := by
  simp only [makeProcedure, h]

theorem makeProcedure_of_error (ev : Evaluator) {e : Error} (h : params ev.isForm specs = .error e)
    (body : List Value) (env : Env) : makeProcedure ev specs body env = Effect.fail e := by
  simp only [makeProcedure, h]

theorem eq_plain_of_map_symbol {names : List String} (h : names.map .symbol = ps.map Param.spec) :
    ps = names.map fun name => ⟨name, .value⟩ := by
  induction names generalizing ps with
  | nil => exact List.map_eq_nil_iff.mp h.symm
  | cons name names ih =>
      obtain ⟨p, rest, rfl, hp, hrest⟩ := List.map_eq_cons_iff.mp h.symm
      obtain ⟨name', mode⟩ := p
      cases mode with
      | value =>
          cases hp
          rw [List.map_cons, ← ih hrest.symm]
      | _ => cases hp

theorem paramList_symbols_iff {names : List String} : ParamList isForm (names.map .symbol) ↔
    names.Nodup ∧ ∀ name ∈ names, isForm name = false := by
  have hnames : (names.map fun name => (⟨name, .value⟩ : Param)).map Param.name = names := by
    simp [Function.comp_def]
  constructor
  · rintro ⟨ps, hspecs, hnodup, hps⟩
    obtain rfl := eq_plain_of_map_symbol hspecs
    rw [hnames] at hnodup
    exact ⟨hnodup, fun name hname => hps ⟨name, .value⟩ (List.mem_map_of_mem hname)⟩
  · rintro ⟨hnodup, hform⟩
    refine ⟨names.map fun name => ⟨name, .value⟩, ?_, by rwa [hnames], ?_⟩
    · simp [Param.spec, Mode.tag]
    · simpa using hform

theorem letBindings_eq_ok_iff {bindings names inits : List Value} :
    letBindings bindings = .ok (names, inits) ↔ ∃ pairs : List (String × Value),
      bindings = pairs.map (fun b => .list [.symbol b.1, b.2]) ∧
        names = (pairs.map (·.1)).map .symbol ∧ inits = pairs.map (·.2) := by
  constructor
  · intro h
    fun_induction letBindings bindings generalizing names inits with
    | case1 =>
        cases h
        exact ⟨[], rfl, rfl, rfl⟩
    | case2 name init rest names' inits' hrest ih =>
        cases h
        obtain ⟨pairs, rfl, rfl, rfl⟩ := ih hrest
        exact ⟨(name, init) :: pairs, rfl, rfl, rfl⟩
    | case3 => cases h
    | case4 => cases h
  · rintro ⟨pairs, rfl, rfl, rfl⟩
    induction pairs with
    | nil => rfl
    | cons b pairs ih => simp only [List.map_cons, letBindings, ih]

inductive Clauses : List Value → Prop where
  | nil : Clauses []
  | otherwise (e : Value) (es : List Value) : Clauses [.list (.symbol "else" :: e :: es)]
  | cons {test : Value} {rest : List Value} (htest : test ≠ .symbol "else") (e : Value)
      (es : List Value) (hrest : Clauses rest) : Clauses (.list (test :: e :: es) :: rest)

theorem exists_condToIf_iff {clauses : List Value} :
    (∃ e, condToIf clauses = .ok e) ↔ Clauses clauses := by
  constructor
  · rintro ⟨e, h⟩
    induction clauses generalizing e with
    | nil => exact .nil
    | cons clause rest ih =>
        obtain ⟨test, body, rfl, hcases⟩ := exists_of_condToIf_cons h
        cases body with
        | nil => cases h
        | cons e es =>
            rcases hcases with ⟨rfl, rfl, -⟩ | ⟨htest, alternative, hrest, -⟩
            · exact .otherwise e es
            · exact .cons htest e es (ih alternative hrest)
  · intro h
    induction h with
    | nil => exact ⟨_, rfl⟩
    | otherwise e es => exact ⟨_, rfl⟩
    | cons htest e es _ ih =>
        obtain ⟨alternative, hrest⟩ := ih
        rw [condToIf, if_neg (mt Value.symbol?_eq_some_iff.mp htest), hrest]
        · exact ⟨_, rfl⟩
        · exact List.cons_ne_nil e es

inductive WellFormed (isForm : String → Bool) : String → List Value → Prop where
  | quote (e : Value) : WellFormed isForm "quote" [e]
  | assignment {name : String} (h : isForm name = false) (e : Value) :
      WellFormed isForm "set!" [.symbol name, e]
  | definition {name : String} (h : isForm name = false) (e : Value) :
      WellFormed isForm "define" [.symbol name, e]
  | procedure {name : String} {specs : List Value} (h : isForm name = false)
      (hspecs : ParamList isForm specs) (e : Value) (es : List Value) :
      WellFormed isForm "define" (.list (.symbol name :: specs) :: e :: es)
  | choice (test e : Value) : WellFormed isForm "if" [test, e]
  | alternative (test e otherwise : Value) : WellFormed isForm "if" [test, e, otherwise]
  | lambda {specs : List Value} (hspecs : ParamList isForm specs) (e : Value) (es : List Value) :
      WellFormed isForm "lambda" (.list specs :: e :: es)
  | cond {clauses : List Value} (h : Clauses clauses) : WellFormed isForm "cond" clauses
  | onSymbol {form : String}
      (h : form ∈ ["defined?", "locally-defined?", "make-unbound!", "make-unbound-locally!"])
      (name : String) : WellFormed isForm form [.symbol name]
  | consStream (head tail : Value) : WellFormed isForm "cons-stream" [head, tail]
  | letForm {bindings : List (String × Value)} (hnodup : (bindings.map (·.1)).Nodup)
      (h : ∀ name ∈ bindings.map (·.1), isForm name = false) (e : Value) (es : List Value) :
      WellFormed isForm "let" (.list (bindings.map fun b => .list [.symbol b.1, b.2]) :: e :: es)
  | anything {form : String} (h : form ∈ ["begin", "and", "or"]) (operands : List Value) :
      WellFormed isForm form operands

end Form

end PassingLisp
