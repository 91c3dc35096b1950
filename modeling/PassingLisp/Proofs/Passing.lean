import PassingLisp.Proofs.Parameters
import PassingLisp.Proofs.Reachable

namespace PassingLisp

namespace Frame

variable {name : String} {value : Value} {f : Frame}

theorem put_of_not_mem {l : List (String × Value)} (h : name ∉ l.map (·.1)) :
    put name value l = l ++ [(name, value)] := by
  induction l with
  | nil => rfl
  | cons b rest ih =>
      rw [List.map_cons, List.mem_cons, not_or] at h
      obtain ⟨hb, hrest⟩ := h
      simp only [put, Ne.symm hb, if_false, ih hrest, List.cons_append]

theorem bindings_foldl_insert {bs : List (String × Value)}
    (h : ((f.bindings ++ bs).map (·.1)).Nodup) :
    (bs.foldl (fun f b => f.insert b.1 b.2) f).bindings = f.bindings ++ bs := by
  induction bs generalizing f with
  | nil => simp
  | cons b bs ih =>
      have hnew : b.1 ∉ f.bindings.map (·.1) := by
        rw [List.map_append, List.map_cons] at h
        intro hmem
        exact (List.nodup_append.mp h).2.2 _ hmem _ List.mem_cons_self rfl
      have hinsert : (f.insert b.1 b.2).bindings = f.bindings ++ [b] := put_of_not_mem hnew
      have hfold := ih (f := f.insert b.1 b.2) (by simpa [hinsert] using h)
      simpa [hinsert] using hfold

theorem ofList_of_nodup {bs : List (String × Value)} (h : (bs.map (·.1)).Nodup) :
    ofList bs = ⟨bs⟩ := by
  have hfold : (ofList bs).bindings = [] ++ bs := bindings_foldl_insert h
  exact congrArg Frame.mk hfold

end Frame

def Param.Distinct (params : List Param) : Prop :=
  (params.map Param.name).Nodup

namespace Discipline

abbrev distinct : Discipline :=
  withParams Param.Distinct fun _ => True

theorem laws_distinct : distinct.Laws :=
  laws_withParams (fun h _ => (Form.nodup_of_paramsAfter h).1) fun _ _ _ => trivial

theorem governs_distinct {m : Nat} : distinct.Governs (Interpreter.limited m) where
  laws := laws_distinct
  text_code := id
  hosts := Routine.hosts_core laws_distinct (expands_withParams _ _)
  binds _ _ := trivial
  replies := replies_of_core laws_distinct

theorem good_distinct_initial : distinct.Good .initial := by
  refine ⟨trivial, trivial, ?_⟩
  rintro i - ⟨name, v⟩ hb
  refine ⟨trivial, ?_⟩
  obtain ⟨-, ⟨name, index, rfl⟩ | rfl⟩ := State.mem_initial hb
  · exact Value.allParams_builtin
  · exact Value.allParams_list_iff.mpr fun _ h => nomatch h

end Discipline

namespace Interpreter

open Discipline

inductive Passes (i : Interpreter) (fuel : Nat) (calls env : Env) (depth : Nat) :
    Mode → Value → State → Effect.Result Value → Prop where
  | value (e : Value) (s : State) :
      Passes i fuel calls env depth .value e s (i.evalWithin fuel e env depth s)
  | dynamic (e : Value) (s : State) :
      Passes i fuel calls env depth .dynamic e s (i.evalWithin fuel e calls depth s)
  | delayed (e : Value) (s : State) :
      Passes i fuel calls env depth .delayed e s
        (.ok (.delayed s.store.delays e env) { s with store := s.store.countDelay })
  | reference {name : String} {s : State} (h : s.store.isDefined env name = true) :
      Passes i fuel calls env depth .reference (.symbol name) s (.ok (.reference name env) s)
  | unnamed {e : Value} {s : State}
      (h : ∀ name, e = .symbol name → s.store.isDefined env name = false) :
      Passes i fuel calls env depth .reference e s (.error (.failed (.referenceArgument e.text)) s)

inductive PassesAll (i : Interpreter) (fuel : Nat) (calls env : Env) (depth : Nat) :
    List (Param × Value) → State → Effect.Result (List Value) → Prop where
  | nil (s : State) : PassesAll i fuel calls env depth [] s (.ok [] s)
  | cons {p : Param} {e v : Value} {rest : List (Param × Value)} {vs : List Value} {s t u : State}
      (h : Passes i fuel calls env depth p.mode e s (.ok v t))
      (hrest : PassesAll i fuel calls env depth rest t (.ok vs u)) :
      PassesAll i fuel calls env depth ((p, e) :: rest) s (.ok (v :: vs) u)
  | stop {p : Param} {e : Value} {rest : List (Param × Value)} {stop : Stop} {s t : State}
      (h : Passes i fuel calls env depth p.mode e s (.error stop t)) :
      PassesAll i fuel calls env depth ((p, e) :: rest) s (.error stop t)
  | later {p : Param} {e v : Value} {rest : List (Param × Value)} {stop : Stop} {s t u : State}
      (h : Passes i fuel calls env depth p.mode e s (.ok v t))
      (hrest : PassesAll i fuel calls env depth rest t (.error stop u)) :
      PassesAll i fuel calls env depth ((p, e) :: rest) s (.error stop u)

variable {i : Interpreter} {D : Discipline} {fuel depth : Nat} {calls env scope : Env} {s t : State}
  {e operator : Value} {operands body : List Value} {params : List Param}

theorem Passes.unique {mode : Mode} {r r' : Effect.Result Value}
    (h : i.Passes fuel calls env depth mode e s r)
    (h' : i.Passes fuel calls env depth mode e s r') : r = r' := by
  cases h with
  | reference h =>
      cases h' with
      | reference => rfl
      | unnamed h' => cases h.symm.trans (h' _ rfl)
  | unnamed h =>
      cases h' with
      | reference h' => cases h'.symm.trans (h _ rfl)
      | unnamed => rfl
  | _ =>
      cases h'
      rfl

theorem PassesAll.unique {pairs : List (Param × Value)} {r r' : Effect.Result (List Value)}
    (h : i.PassesAll fuel calls env depth pairs s r)
    (h' : i.PassesAll fuel calls env depth pairs s r') : r = r' := by
  induction h generalizing r' with
  | nil =>
      cases h'
      rfl
  | cons h _ ih =>
      cases h' with
      | cons h' hrest' =>
          cases h.unique h'
          cases ih hrest'
          rfl
      | stop h' => cases h.unique h'
      | later h' hrest' =>
          cases h.unique h'
          cases ih hrest'
  | stop h =>
      cases h' with
      | cons h' _ => cases h.unique h'
      | stop h' =>
          cases h.unique h'
          rfl
      | later h' _ => cases h.unique h'
  | later h _ ih =>
      cases h' with
      | cons h' hrest' =>
          cases h.unique h'
          cases ih hrest'
      | stop h' => cases h.unique h'
      | later h' hrest' =>
          cases h.unique h'
          cases ih hrest'
          rfl

theorem PassesAll.length_eq {pairs : List (Param × Value)} {vs : List Value}
    (h : i.PassesAll fuel calls env depth pairs s (.ok vs t)) : vs.length = pairs.length := by
  generalize hr : EStateM.Result.ok vs t = r at h
  induction h generalizing vs with
  | nil =>
      cases hr
      rfl
  | cons _ _ ih =>
      cases hr
      simp [ih rfl]
  | _ => cases hr

theorem passes_pass (i : Interpreter) (fuel : Nat) (p : Param) (e : Value) (env : Env) (depth : Nat)
    (s : State) :
    i.Passes fuel s.stack env depth p.mode e s ((i.evaluator fuel).pass p e env depth s) := by
  obtain ⟨name, mode⟩ := p
  cases mode with
  | value => exact .value e s
  | delayed => exact .delayed e s
  | dynamic => exact .dynamic e s
  | reference =>
      cases e with
      | symbol target =>
          simp only [Evaluator.pass, Effect.bind_apply, Effect.read]
          cases h : s.store.isDefined env target with
          | true => exact .reference h
          | false =>
              refine .unnamed fun name hname => ?_
              cases hname
              exact h
      | _ => exact .unnamed fun _ h => by cases h

theorem ends_pass (hi : D.Governs i) (hg : D.Good s) (fuel : Nat) (p : Param)
    (hc : D.Allows .code s.store.frames.size e) (he : D.Scope s.store.frames.size env)
    (depth : Nat) :
    D.Ends s (fun v m => D.Allows .argument m v) ((i.evaluator fuel).pass p e env depth s) := by
  have hamong : p.mode = .dynamic → D.Hosts Form.amongCalls := fun _ =>
    Routine.hosts_amongCalls hi.laws
  exact hi.ends_routine fuel ((Straight.pass hi.laws p hamong hc he).routine fun _ => id) hg

theorem passesAll_inOrder (hi : D.Governs i) (hg : D.Good s) (fuel : Nat)
    {pairs : List (Param × Value)} (hc : ∀ p ∈ pairs, D.Allows .code s.store.frames.size p.2)
    (he : D.Scope s.store.frames.size env) (depth : Nat) :
    i.PassesAll fuel s.stack env depth pairs s
      (Effect.inOrder (fun p => (i.evaluator fuel).pass p.1 p.2 env depth) pairs s) := by
  induction pairs generalizing s with
  | nil => exact .nil s
  | cons pair rest ih =>
      obtain ⟨p, e⟩ := pair
      have hends := ends_pass hi hg fuel p (hc (p, e) List.mem_cons_self) he depth
      have hfirst := i.passes_pass fuel p e env depth s
      rw [Effect.inOrder, Effect.bind_apply]
      generalize (i.evaluator fuel).pass p e env depth s = first at hends hfirst
      match first, hends, hfirst with
      | .error stop t, _, hfirst => exact .stop hfirst
      | .ok v t, ⟨hafter, _⟩, hfirst =>
          have hcode (q : Param × Value) (hq : q ∈ rest) : D.Allows .code t.store.frames.size q.2 :=
            hi.laws.mono hafter.size_le (hc q (List.mem_cons_of_mem _ hq))
          have htail := ih hafter.good hcode (hi.laws.scope_mono hafter.size_le he)
          rw [hafter.stack_eq] at htail
          dsimp only
          rw [Effect.bind_apply]
          generalize Effect.inOrder _ rest t = last at htail
          cases last with
          | ok vs u => exact .cons hfirst htail
          | error stop u => exact .later hfirst htail

structure Called (i : Interpreter) (fuel : Nat) (params : List Param) (body : List Value)
    (scope : Env) (depth : Nat) (args : List Value) (s : State) : Prop where
  length_eq : args.length = params.length
  extend_eq : Effect.extend scope (params.map Param.name) args s =
    .ok (.scope .lexical s.store.frames.size scope)
      { s with store := (s.store.enter scope ⟨(params.map Param.name).zip args⟩).2 }
  body_eq : depth < i.maxDepth →
    (i.evaluator fuel).callProcedure params body scope args depth s =
      Effect.inCall (.scope .lexical s.store.frames.size scope)
        ((i.evaluator fuel).sequence body (.scope .lexical s.store.frames.size scope) (depth + 1))
        { s with store := (s.store.enter scope ⟨(params.map Param.name).zip args⟩).2 }

structure CallsProcedure (i : Interpreter) (fuel : Nat) (operator : Value) (operands : List Value)
    (params : List Param) (body : List Value) (scope env : Env) (depth : Nat) (s t : State) :
    Prop where
  mismatch : operands.length ≠ params.length →
    i.evalWithin (fuel + 1) (.list (operator :: operands)) env depth s =
      .error (.failed (.arity params.length operands.length (some operator.text))) t
  passes : operands.length = params.length →
    ∃ r, i.PassesAll fuel s.stack env depth (params.zip operands) t r
  stops {stop : Stop} {u : State} : operands.length = params.length →
    i.PassesAll fuel s.stack env depth (params.zip operands) t (.error stop u) →
    i.evalWithin (fuel + 1) (.list (operator :: operands)) env depth s =
      .error (stop.locate (.list (operator :: operands))) u
  calls {args : List Value} {u : State} : operands.length = params.length →
    i.PassesAll fuel s.stack env depth (params.zip operands) t (.ok args u) →
    i.evalWithin (fuel + 1) (.list (operator :: operands)) env depth s =
        Effect.explain (Stop.locate (.list (operator :: operands)))
          ((i.evaluator fuel).callProcedure params body scope args depth) u ∧
      i.Called fuel params body scope depth args u

def PassesArguments (i : Interpreter) (e : Value) (env : Env) (depth : Nat) (s : State) : Prop :=
  ∀ fuel operator operands params body scope t, e = .list (operator :: operands) →
    i.evalWithin fuel operator env depth s = .ok (.procedure params body scope) t →
    i.CallsProcedure fuel operator operands params body scope env depth s t

theorem called_of_nodup (hn : Param.Distinct params) {args : List Value}
    (hlen : args.length = params.length) (body : List Value) (scope : Env) (s : State) :
    i.Called fuel params body scope depth args s := by
  have hlen' : (params.map Param.name).length = args.length := by simpa using hlen.symm
  have hnodup : (((params.map Param.name).zip args).map (·.1)).Nodup := by
    rw [List.map_fst_zip (Nat.le_of_eq hlen')]
    exact hn
  have hframe := Frame.ofList_of_nodup hnodup
  refine ⟨hlen, ?_, fun hd => ?_⟩
  · simp only [Effect.extend, hlen', if_true, hframe]
  · rw [(i.evaluator fuel).callProcedure_eq_inCall hd hlen.symm, hframe]

theorem invoked?_eq_none_of_procedure {head : String}
    (h : i.evalWithin fuel (.symbol head) env depth s = .ok (.procedure params body scope) t) :
    i.forms.invoked? s.store env head = none := by
  cases fuel with
  | zero => cases h
  | succ fuel =>
      have hsymbol : (i.evaluator fuel).evalSymbol head env depth s =
          .ok (.procedure params body scope) t := h
      unfold Evaluator.evalSymbol at hsymbol
      split at hsymbol
      · cases hsymbol
      · rename_i hform
        unfold FormTable.invoked?
        simp only [FormTable.find?_eq_none (Bool.eq_false_iff.mpr hform)]
        split
        · rename_i name hget
          simp [Effect.bind_apply, Effect.resolve, Store.resolve, hget, Evaluator.settle,
            Effect.pure_apply] at hsymbol
        · rfl

theorem evalList_of_procedure
    (h : i.evalWithin fuel operator env depth s = .ok (.procedure params body scope) t)
    (operands : List Value) :
    Evaluator.evalList i.forms (i.evaluator fuel) (operator :: operands) env depth s =
      (i.evaluator fuel).application operator operands env depth s := by
  cases operator with
  | symbol head =>
      exact Evaluator.evalList_of_not_invoked _ _ (invoked?_eq_none_of_procedure h) operands depth
  | number | string | bool | unspecified => cases fuel <;> cases h
  | _ => rfl

theorem evalWithin_of_procedure
    (h : i.evalWithin fuel operator env depth s = .ok (.procedure params body scope) t)
    (operands : List Value) :
    i.evalWithin (fuel + 1) (.list (operator :: operands)) env depth s =
      Effect.explain (Stop.locate (.list (operator :: operands)))
        ((i.evaluator fuel).passAll operator params operands env depth >>= fun args =>
          (i.evaluator fuel).callProcedure params body scope args depth) t := by
  have hlist := evalList_of_procedure h operands
  have heval : (i.evaluator fuel).eval operator env depth s =
      .ok (.procedure params body scope) t := h
  rw [Evaluator.application, Effect.bind_apply, heval] at hlist
  rw [evalWithin, ← evaluator, Evaluator.step, Effect.explain, hlist]
  rfl

theorem callsProcedure (hi : distinct.Governs i) (hg : distinct.Good s)
    (he : (Value.list (operator :: operands)).AllParams Param.Distinct)
    (h : i.evalWithin fuel operator env depth s = .ok (.procedure params body scope) t) :
    i.CallsProcedure fuel operator operands params body scope env depth s t := by
  have hparts := Value.allParams_list_iff.mp he
  have hends : distinct.Ends s (fun v m => distinct.Allows .result m v)
      (i.evalWithin fuel operator env depth s) :=
    hi.ends fuel hg (hparts operator List.mem_cons_self) trivial
  rw [h] at hends
  obtain ⟨hafter, hprocedure⟩ := hends
  have hnames : Param.Distinct params := (Value.allParams_procedure_iff.mp hprocedure).1
  have hoperands : ∀ q ∈ params.zip operands, q.2.AllParams Param.Distinct :=
    fun q hq => hparts q.2 (List.mem_cons_of_mem _ (List.of_mem_zip hq).2)
  have henv : distinct.Scope t.store.frames.size env := trivial
  have hpassed := passesAll_inOrder hi hafter.good fuel hoperands henv depth
  rw [hafter.stack_eq] at hpassed
  have heval := evalWithin_of_procedure h operands
  refine ⟨fun hlen => ?_, fun _ => ⟨_, hpassed⟩, fun hlen hstop => ?_, fun hlen hargs => ?_⟩
  · rw [heval, Evaluator.passAll, if_neg (Ne.symm hlen)]
    rfl
  · rw [heval, Evaluator.passAll, if_pos hlen.symm, Effect.explain, Effect.bind_apply,
      hpassed.unique hstop]
  · have hcount := hargs.length_eq
    rw [List.length_zip, hlen, Nat.min_self] at hcount
    refine ⟨?_, called_of_nodup hnames hcount body scope _⟩
    rw [heval, Evaluator.passAll, if_pos hlen.symm, Effect.explain, Effect.bind_apply,
      hpassed.unique hargs]
    rfl

theorem passesArguments (hi : distinct.Governs i) (hg : distinct.Good s)
    (he : e.AllParams Param.Distinct) (env : Env) (depth fuel : Nat) :
    distinct.Good (stateAfter (i.evalWithin fuel e env depth s)) ∧
      i.Throughout (fun e env depth s _ => i.PassesArguments e env depth s) fuel e env depth s := by
  refine ⟨(hi.ends fuel hg he trivial).after.good, throughout_of_governs hi ?_ fuel hg he trivial⟩
  rintro e env depth s - hg hcode - - fuel operator operands params body scope t rfl h
  exact callsProcedure hi hg hcode h

def calling : Value :=
  .list [.list [.symbol "lambda",
      .list [.symbol "a", .list [.symbol "delayed", .symbol "b"],
        .list [.symbol "dynamic", .symbol "c"], .list [.symbol "reference", .symbol "d"]],
      .symbol "a"],
    .number 1, .list [.symbol "car", .number 2], .symbol "car", .symbol "cdr"]

theorem readable_calling : calling.Readable := by
  simp [calling, Value.readable_list_iff, Value.Readable.symbol, Value.Readable.number]

theorem passesArguments_calling :
    (distinct.Governs (limited 8) ∧ distinct.Good .initial ∧
        calling.AllParams Param.Distinct) ∧
      (∃ t, (limited 8).evalWithin 3 calling .globals 0 .initial = .ok (.number 1) t) ∧
      distinct.Good (stateAfter ((limited 8).evalWithin ample calling .globals 0 .initial)) ∧
        (limited 8).Throughout (fun e env depth s _ => (limited 8).PassesArguments e env depth s)
          ample calling .globals 0 .initial := by
  have hcode : calling.AllParams Param.Distinct := readable_calling.allParams
  exact ⟨⟨governs_distinct, good_distinct_initial, hcode⟩, ⟨_, rfl⟩,
    passesArguments governs_distinct good_distinct_initial hcode .globals 0 ample⟩

end Interpreter

end PassingLisp
