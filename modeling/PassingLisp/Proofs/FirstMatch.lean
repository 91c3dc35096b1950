import PassingLisp.Proofs.Contexts
import PassingLisp.Proofs.Fuel

namespace PassingLisp

namespace Effect

variable {α : Type}

theorem Sooner.plain {x y : Effect α} {s : State} (h : Sooner (x s) (y s)) :
    Sooner (x.plain s) (y.plain s) :=
  h.explain rfl

theorem Settles.plain {x : Nat → Effect α} {s t : State} {a : α} (h : Settles x s (.ok a t)) :
    Settles (fun fuel => (x fuel).plain) s (.ok a t) := by
  obtain ⟨hr, limit, hx⟩ := h
  refine ⟨hr, limit, fun fuel hfuel => ?_⟩
  simp only [Effect.plain, explain, hx fuel hfuel]

end Effect

open Effect

def Evaluator.firstMatch (ev : Evaluator) : List Value → Env → Nat → Effect Value
  | [], _, _ => pure (.bool false)
  | .list (test :: body) :: rest, env, depth =>
      if test.symbol? = some "else" then ev.sequence body env depth
      else do
        let v ← ev.eval test env depth
        if v.isTrue then ev.sequence body env depth else firstMatch ev rest env depth
  | _ :: rest, env, depth => firstMatch ev rest env depth

namespace Evaluator

variable (ev : Evaluator) {test : Value}

theorem firstMatch_else (body rest : List Value) :
    ev.firstMatch (.list (.symbol "else" :: body) :: rest) = ev.sequence body := by
  funext env depth
  rw [firstMatch]
  exact if_pos rfl

theorem plain_firstMatch_cons (h : test ≠ .symbol "else") (body rest : List Value) (env : Env)
    (depth : Nat) :
    (ev.firstMatch (.list (test :: body) :: rest) env depth).plain =
      (ev.eval test env depth).plain >>= fun v =>
        if v.isTrue then (ev.sequence body env depth).plain
        else (ev.firstMatch rest env depth).plain := by
  rw [firstMatch, if_neg (mt Value.symbol?_eq_some_iff.mp h), plain_bind]
  simp only [apply_ite plain]

end Evaluator

namespace Interpreter

variable {i : Interpreter} {fuel fuel' depth : Nat} {env : Env} {s : State}

theorem Outlasts.firstMatch (h : i.Outlasts fuel' fuel) (clauses : List Value) (env : Env)
    (depth : Nat) (s : State) :
    Sooner ((i.evaluator fuel).firstMatch clauses env depth s)
      ((i.evaluator fuel').firstMatch clauses env depth s) := by
  fun_induction Evaluator.firstMatch (i.evaluator fuel) clauses env depth generalizing s with
  | case1 => exact .same _
  | case2 test body rest env depth htest =>
      rw [Evaluator.firstMatch, if_pos htest]
      exact h.sequence body env depth s
  | case3 test body rest env depth htest ih =>
      rw [Evaluator.firstMatch, if_neg htest]
      refine Sooner.bind (h test env depth s) fun v t _ => ?_
      cases v.isTrue with
      | true => exact h.sequence body env depth t
      | false => exact ih t
  | case4 clause rest env depth hne ih =>
      rw [Evaluator.firstMatch]
      · exact ih s
      · exact hne

def KeepsForms (i : Interpreter) : Prop :=
  ∀ name handler, FormTable.core.find? name = some handler → i.forms.find? name = some handler

theorem plain_evalWithin_of_invoked {head : String} {handler : Handler}
    (h : i.forms.invoked? s.store env head = some handler) (fuel : Nat) (operands : List Value)
    (depth : Nat) :
    (i.evalWithin (fuel + 1) (.list (.symbol head :: operands)) env depth).plain s =
      (handler (i.evaluator fuel) operands env depth).plain s := by
  rw [plain_congr (evalWithin_of_invoked h fuel operands depth), plain_explain_locate]

section

variable (hi : i.KeepsForms)

include hi

theorem KeepsForms.invoked? {name : String} {handler : Handler}
    (h : FormTable.core.find? name = some handler) (σ : Store) (env : Env) :
    i.forms.invoked? σ env name = some handler := by
  simp only [FormTable.invoked?, hi name handler h]

theorem KeepsForms.plain_begin (fuel : Nat) (body : List Value) (env : Env) (depth : Nat)
    (s : State) :
    (i.evalWithin (fuel + 1) (.list (.symbol "begin" :: body)) env depth).plain s =
      ((i.evaluator fuel).sequence body env depth).plain s :=
  plain_evalWithin_of_invoked (hi.invoked? rfl s.store env) fuel body depth

theorem KeepsForms.plain_choice (fuel : Nat) (test e alternative : Value) (env : Env) (depth : Nat)
    (s : State) :
    (i.evalWithin (fuel + 1) (.list [.symbol "if", test, e, alternative]) env depth).plain s =
      ((i.evalWithin fuel test env depth).plain >>= fun v =>
        if v.isTrue then (i.evalWithin fuel e env depth).plain
        else (i.evalWithin fuel alternative env depth).plain) s := by
  have hif : i.forms.invoked? s.store env "if" = some Form.choice := hi.invoked? rfl s.store env
  have hlist := plain_evalWithin_of_invoked hif fuel [test, e, alternative] depth
  rw [hlist, Form.choice, plain_bind]
  simp only [apply_ite plain]
  rfl

variable (ho : i.OnlyEvaluates)

include ho

theorem sooner_sequence (fuel : Nat) (body : List Value) (env : Env) (depth : Nat) (s : State) :
    Sooner ((i.evalWithin fuel (Form.sequenceToExpr body) env depth).plain s)
      (((i.evaluator fuel).sequence body env depth).plain s) := by
  unfold Form.sequenceToExpr
  split
  · exact .same _
  · cases fuel with
    | zero => exact .unfinished s _
    | succ fuel =>
        rw [hi.plain_begin]
        exact ((ho.outlasts (Nat.le_succ fuel)).sequence body env depth s).plain

theorem sequence_sooner (fuel : Nat) (body : List Value) (env : Env) (depth : Nat) (s : State) :
    Sooner (((i.evaluator fuel).sequence body env depth).plain s)
      ((i.evalWithin (fuel + 1) (Form.sequenceToExpr body) env depth).plain s) := by
  unfold Form.sequenceToExpr
  split
  · rename_i e
    exact (ho.outlasts (Nat.le_succ fuel) e env depth s).plain
  · rw [hi.plain_begin]
    exact .same _

theorem sooner_firstMatch {clauses : List Value} {e : Value} (h : Form.condToIf clauses = .ok e)
    (fuel : Nat) (env : Env) (depth : Nat) (s : State) :
    Sooner ((i.evalWithin fuel e env depth).plain s)
      (((i.evaluator fuel).firstMatch clauses env depth).plain s) := by
  cases fuel with
  | zero => exact .unfinished s _
  | succ fuel =>
      induction clauses generalizing e s with
      | nil =>
          cases h
          exact .same _
      | cons clause rest ih =>
          obtain ⟨test, body, rfl, hcases⟩ := Form.exists_of_condToIf_cons h
          rcases hcases with ⟨rfl, -, rfl⟩ | ⟨htest, alternative, hr, rfl⟩
          · rw [Evaluator.firstMatch_else]
            exact sooner_sequence hi ho (fuel + 1) body env depth s
          · have hmore : i.Outlasts (fuel + 1) fuel := ho.outlasts (Nat.le_succ fuel)
            rw [hi.plain_choice, Evaluator.plain_firstMatch_cons _ htest]
            refine Sooner.bind (hmore test env depth s).plain fun v t _ => ?_
            cases v.isTrue with
            | true =>
                have hbody := sooner_sequence hi ho fuel body env depth t
                exact hbody.trans (hmore.sequence body env depth t).plain
            | false => exact (hmore alternative env depth t).plain.trans (ih hr t)

theorem firstMatch_sooner {clauses : List Value} {e : Value} (h : Form.condToIf clauses = .ok e)
    (fuel : Nat) (env : Env) (depth : Nat) (s : State) :
    Sooner (((i.evaluator fuel).firstMatch clauses env depth).plain s)
      ((i.evalWithin (fuel + (clauses.length + 1)) e env depth).plain s) := by
  induction clauses generalizing e s with
  | nil =>
      cases h
      exact .same _
  | cons clause rest ih =>
      obtain ⟨test, body, rfl, hcases⟩ := Form.exists_of_condToIf_cons h
      have hbody (k : Nat) (t : State) : Sooner (((i.evaluator fuel).sequence body env depth).plain t)
          ((i.evalWithin (fuel + (k + 1)) (Form.sequenceToExpr body) env depth).plain t) := by
        have hmore : i.Outlasts (fuel + (k + 1)) (fuel + 1) := ho.outlasts (by omega)
        exact (sequence_sooner hi ho fuel body env depth t).trans (hmore _ env depth t).plain
      rcases hcases with ⟨rfl, -, rfl⟩ | ⟨htest, alternative, hr, rfl⟩
      · rw [Evaluator.firstMatch_else]
        exact hbody (rest.length + 1) s
      · have hmore : i.Outlasts (fuel + (rest.length + 1)) fuel := ho.outlasts (by omega)
        rw [List.length_cons, ← Nat.add_assoc fuel, hi.plain_choice,
          Evaluator.plain_firstMatch_cons _ htest]
        refine Sooner.bind (hmore test env depth s).plain fun v t _ => ?_
        cases v.isTrue with
        | true => exact hbody rest.length t
        | false => exact ih hr t

theorem settles_iff_firstMatch {head : String} {clauses : List Value} {e : Value}
    (hhead : i.forms.invoked? s.store env head = some Form.cond)
    (h : Form.condToIf clauses = .ok e) (depth : Nat) (r : Result Value) :
    Settles (fun fuel => (i.evalWithin fuel (.list (.symbol head :: clauses)) env depth).plain)
        s r ↔
      Settles (fun fuel => ((i.evaluator fuel).firstMatch clauses env depth).plain) s r := by
  have hlist (fuel : Nat) :
      (i.evalWithin (fuel + 1) (.list (.symbol head :: clauses)) env depth).plain s =
        (i.evalWithin fuel e env depth).plain s := by
    rw [plain_evalWithin_of_invoked hhead fuel clauses depth, Form.cond, h]
    rfl
  constructor
  · refine Settles.of_sooner 0 (fun fuel => ?_) fun fuel fuel' hle => ?_
    · cases fuel with
      | zero => exact .unfinished s _
      | succ fuel =>
          have hmore : i.Outlasts (fuel + 1) fuel := ho.outlasts (Nat.le_succ fuel)
          rw [hlist]
          exact (sooner_firstMatch hi ho h fuel env depth s).trans
            (hmore.firstMatch clauses env depth s).plain
    · exact ((ho.outlasts hle).firstMatch clauses env depth s).plain
  · refine Settles.of_sooner (clauses.length + 2) (fun fuel => ?_) fun fuel fuel' hle => ?_
    · rw [← Nat.add_assoc fuel (clauses.length + 1) 1, hlist]
      exact firstMatch_sooner hi ho h fuel env depth s
    · exact (ho.outlasts hle _ env depth s).plain

end

inductive Chooses (i : Interpreter) (env : Env) (depth : Nat) :
    List Value → State → List Value → State → Prop where
  | otherwise (body rest : List Value) (s : State) :
      Chooses i env depth (.list (.symbol "else" :: body) :: rest) s body s
  | here {test v : Value} {s t : State} (body rest : List Value) (hne : test ≠ .symbol "else")
      (ht : Settles (fun fuel => i.evalWithin fuel test env depth) s (.ok v t))
      (hv : v.isTrue = true) : Chooses i env depth (.list (test :: body) :: rest) s body t
  | later {test v : Value} {s t u : State} {body rest chosen : List Value}
      (hne : test ≠ .symbol "else")
      (ht : Settles (fun fuel => i.evalWithin fuel test env depth) s (.ok v t))
      (hv : v.isTrue = false) (h : Chooses i env depth rest t chosen u) :
      Chooses i env depth (.list (test :: body) :: rest) s chosen u

theorem settles_firstMatch_cons {test v : Value} {t : State} (hne : test ≠ .symbol "else")
    (ht : Settles (fun fuel => i.evalWithin fuel test env depth) s (.ok v t))
    (body rest : List Value) (r : Result Value) :
    Settles (fun fuel => ((i.evaluator fuel).firstMatch (.list (test :: body) :: rest) env
        depth).plain) s r ↔
      Settles (fun fuel => if v.isTrue then ((i.evaluator fuel).sequence body env depth).plain
        else ((i.evaluator fuel).firstMatch rest env depth).plain) t r := by
  simp only [Evaluator.plain_firstMatch_cons _ hne]
  exact settles_bind_iff (f := fun fuel v => if v.isTrue
    then ((i.evaluator fuel).sequence body env depth).plain
    else ((i.evaluator fuel).firstMatch rest env depth).plain) ht.plain

theorem Chooses.settles_firstMatch {clauses body : List Value} {t : State}
    (h : i.Chooses env depth clauses s body t) (r : Result Value) :
    Settles (fun fuel => ((i.evaluator fuel).firstMatch clauses env depth).plain) s r ↔
      Settles (fun fuel => ((i.evaluator fuel).sequence body env depth).plain) t r := by
  induction h with
  | otherwise body rest s => simp only [Evaluator.firstMatch_else]
  | here body rest hne ht hv =>
      have hcons := settles_firstMatch_cons hne ht body rest r
      simpa only [hv, if_true] using hcons
  | @later test v s t u body rest chosen hne ht hv _ ih =>
      have hcons := settles_firstMatch_cons hne ht body rest r
      simp only [hv] at hcons
      exact hcons.trans ih

structure ReadsFirstMatch (i : Interpreter) (head : String) (clauses : List Value) (env : Env)
    (depth : Nat) (s : State) : Prop where
  accepted {e : Value} : Form.condToIf clauses = .ok e → ∀ r,
    Settles (fun fuel => (i.evalWithin fuel (.list (.symbol head :: clauses)) env depth).plain)
        s r ↔
      Settles (fun fuel => ((i.evaluator fuel).firstMatch clauses env depth).plain) s r
  chosen {e : Value} {body : List Value} {t : State} : Form.condToIf clauses = .ok e →
    i.Chooses env depth clauses s body t → ∀ r,
    Settles (fun fuel => (i.evalWithin fuel (.list (.symbol head :: clauses)) env depth).plain)
        s r ↔
      Settles (fun fuel => ((i.evaluator fuel).sequence body env depth).plain) t r
  rejected {e : Error} (eval' : Value → Env → Nat → Effect Value) :
    Form.condToIf clauses = .error e →
    Evaluator.step i.forms (i.around eval') (.list (.symbol head :: clauses)) env depth s =
      .error (.failed (e.locate (.list (.symbol head :: clauses)))) s

theorem readsFirstMatch (hi : i.KeepsForms) (ho : i.OnlyEvaluates) {head : String}
    (hhead : i.forms.invoked? s.store env head = some Form.cond) (clauses : List Value)
    (depth : Nat) : i.ReadsFirstMatch head clauses env depth s where
  accepted h r := settles_iff_firstMatch hi ho hhead h depth r
  chosen h hc r := (settles_iff_firstMatch hi ho hhead h depth r).trans (hc.settles_firstMatch r)
  rejected eval' h := by
    rw [Evaluator.step, explain, Evaluator.evalList_of_invoked _ _ hhead, Form.cond, h]
    rfl

def choosing : List Value :=
  [.list [.bool false, .number 1],
    .list [.list [.symbol "=", .number 1, .number 2], .number 2],
    .list [.symbol "car", .number 3, .number 4],
    .list [.symbol "else", .number 5]]

theorem readsFirstMatch_choosing :
    ((limited 8).KeepsForms ∧ (limited 8).OnlyEvaluates ∧
        (limited 8).forms.invoked? State.initial.store .globals "cond" = some Form.cond) ∧
      (∃ t, (limited 8).evalWithin 9 (.list (.symbol "cond" :: choosing)) .globals 0 .initial =
        .ok (.number 4) t) ∧
      (limited 8).ReadsFirstMatch "cond" choosing .globals 0 .initial := by
  have hkeeps : (limited 8).KeepsForms := fun _ _ h => h
  have honly : (limited 8).OnlyEvaluates := fun _ h => .inl h
  exact ⟨⟨hkeeps, honly, rfl⟩, ⟨_, rfl⟩, readsFirstMatch hkeeps honly rfl choosing 0⟩

end Interpreter

end PassingLisp
