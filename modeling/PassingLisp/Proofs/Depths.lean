import PassingLisp.Proofs.Budget

namespace PassingLisp

open Discipline

inductive Task where
  | evaluation (e : Value) (env : Env)
  | form (handler : Handler) (operands : List Value) (env : Env)
  | body (es : List Value) (env : Env)

structure Moment where
  task : Task
  calls : Nat
  forcings : Nat
  depth : Nat
  stack : Env

namespace Discipline

def steady : Discipline :=
  { anything with AnyDepth := False }

theorem laws_steady : steady.Laws :=
  { laws_anything with }

theorem good_steady (s : State) : steady.Good s :=
  ⟨trivial, trivial, fun _ _ _ _ => ⟨trivial, trivial⟩⟩

end Discipline

theorem Effect.inCall_congr {α : Type} {env : Env} {x y : Effect α} {s : State}
    (h : x { s with stack := s.stack.push env } = y { s with stack := s.stack.push env }) :
    inCall env x s = inCall env y s := by
  simp only [inCall, h]

namespace Evaluator

variable (ev : Evaluator) {depth : Nat}

theorem force_of_lt (h : depth < ev.maxDepth) (e : Value) (env : Env) :
    ev.force e env depth = ev.eval e env (depth + 1) := by
  simp only [force, ev.descend_of_lt h, pure_bind]

theorem force_of_le (h : ev.maxDepth ≤ depth) (e : Value) (env : Env) (s : State) :
    ev.force e env depth s = .error (.failed (.depthLimit ev.maxDepth none)) s := by
  rw [force, ev.descend_of_le h]
  rfl

theorem callProcedure_of_le (h : ev.maxDepth ≤ depth) (params : List Param) (body : List Value)
    (env : Env) (args : List Value) (s : State) :
    ev.callProcedure params body env args depth s =
      .error (.failed (.depthLimit ev.maxDepth none)) s := by
  rw [callProcedure, ev.descend_of_le h]
  rfl

section

variable {id : Nat} {e : Value} {scope env : Env} {s : State}

theorem evalSymbol_of_delayed {name : String} (hname : ev.isForm name = false)
    (h : s.store.resolve env name = .ok (.delayed id e scope)) (depth : Nat) :
    ev.evalSymbol name env depth s = ev.force e scope depth s := by
  have hresolve : Effect.resolve env name s = .ok (.delayed id e scope) s := by
    simp only [Effect.resolve, h]
  simp only [evalSymbol, hname, Bool.false_eq_true, if_false, Effect.bind_apply, hresolve, settle]

theorem apply_of_delayed {index : Nat} {b : Builtin} {args : List Value}
    (hget : ev.builtin? index = some b) (h : (b.call args).result = .ok (.delayed id e scope))
    (name : String) (depth : Nat) (s : State) :
    ev.apply (.builtin name index) args depth s =
      ev.force e scope depth { s with output := s.output ++ (b.call args).output } := by
  simp only [apply, hget, callBuiltin, Effect.bind_apply, Effect.print, h, Effect.ofExcept,
    Effect.pure_apply, settle]

end

end Evaluator

namespace Interpreter

/-- `P` holds of all tasks that are begun in a computation, with so many procedures being applied
and so many delayed expressions being forced around it. An application counts as long as its body
runs, a forcing as long as what is forced is evaluated. -/
inductive Through (i : Interpreter) (P : Moment → Prop) :
    Nat → Nat → Nat → {α : Type} → (Evaluator → Nat → Effect α) → Nat → State → Prop where
  | primitive {fuel calls forcings depth : Nat} {s : State} {α : Type} {x : Effect α}
      {Q : α → Nat → Prop} (h : Primitive steady s.store.frames.size x Q) :
      Through i P fuel calls forcings (fun _ _ => x) depth s
  | bind {fuel calls forcings depth : Nat} {s : State} {α β : Type}
      {x : Evaluator → Nat → Effect α} {f : Evaluator → Nat → α → Effect β}
      (hx : Through i P fuel calls forcings x depth s)
      (hf : ∀ a t, x (i.evaluator fuel) depth s = .ok a t →
        Through i P fuel calls forcings (fun ev depth => f ev depth a) depth t) :
      Through i P fuel calls forcings (fun ev depth => x ev depth >>= f ev depth) depth s
  | explain {fuel calls forcings depth : Nat} {s : State} {α : Type}
      {x : Evaluator → Nat → Effect α} (f : Stop → Stop)
      (h : Through i P fuel calls forcings x depth s) :
      Through i P fuel calls forcings (fun ev depth => Effect.explain f (x ev depth)) depth s
  | attempt {fuel calls forcings depth : Nat} {s : State} {α : Type}
      {x : Evaluator → Nat → Effect α} (h : Through i P fuel calls forcings x depth s) :
      Through i P fuel calls forcings (fun ev depth => Effect.attempt (x ev depth)) depth s
  | ifForm {fuel calls forcings depth : Nat} {s : State} {α : Type}
      {x y : Evaluator → Nat → Effect α} {name : String}
      (hx : i.forms.contains name = true → Through i P fuel calls forcings x depth s)
      (hy : i.forms.contains name = false → Through i P fuel calls forcings y depth s) :
      Through i P fuel calls forcings
        (fun ev depth => if ev.isForm name then x ev depth else y ev depth) depth s
  | withBuiltin {fuel calls forcings depth : Nat} {s : State} {α : Type}
      {x : Builtin → Evaluator → Nat → Effect α} {y : Evaluator → Nat → Effect α} {index : Nat}
      (hx : ∀ b, i.builtins[index]? = some b → Through i P fuel calls forcings (x b) depth s)
      (hy : i.builtins[index]? = none → Through i P fuel calls forcings y depth s) :
      Through i P fuel calls forcings (fun ev depth => match ev.builtin? index with
        | some b => x b ev depth
        | none => y ev depth) depth s
  | makeProcedure {fuel calls forcings depth : Nat} {s : State} (specs body : List Value)
      (env : Env) : Through i P fuel calls forcings
        (fun ev _ => Form.makeProcedure ev specs body env) depth s
  | unfinished {calls forcings depth : Nat} {s : State} {e : Value} {env : Env}
      (hP : P ⟨.evaluation e env, calls, forcings, depth, s.stack⟩) :
      Through i P 0 calls forcings (fun ev depth => ev.eval e env depth) depth s
  | eval {fuel calls forcings depth : Nat} {s : State} {e : Value} {env : Env}
      (hP : P ⟨.evaluation e env, calls, forcings, depth, s.stack⟩)
      (hform : ∀ head operands handler, e = .list (.symbol head :: operands) →
        i.forms.invoked? s.store env head = some handler →
        P ⟨.form handler operands env, calls, forcings, depth, s.stack⟩)
      (h : Through i P fuel calls forcings
        (fun ev depth => Evaluator.step i.forms ev e env depth) depth s) :
      Through i P (fuel + 1) calls forcings (fun ev depth => ev.eval e env depth) depth s
  | force {fuel calls forcings depth : Nat} {s : State} {e : Value} {env : Env}
      (h : depth < i.maxDepth → Through i P fuel calls (forcings + 1)
        (fun ev depth => ev.eval e env depth) (depth + 1) s) :
      Through i P fuel calls forcings (fun ev depth => ev.force e env depth) depth s
  | call {fuel calls forcings depth : Nat} {s : State} {params : List Param} {body : List Value}
      {env : Env} {args : List Value}
      (hP : depth < i.maxDepth → params.length = args.length →
        P ⟨.body body (.scope .lexical s.store.frames.size env), calls + 1, forcings, depth + 1,
          .scope .dynamic s.store.frames.size s.stack⟩)
      (h : depth < i.maxDepth → params.length = args.length →
        Through i P fuel (calls + 1) forcings
          (fun ev depth => ev.sequence body (.scope .lexical s.store.frames.size env) depth)
          (depth + 1) (s.called env ((params.map Param.name).zip args))) :
      Through i P fuel calls forcings
        (fun ev depth => ev.callProcedure params body env args depth) depth s

variable {i : Interpreter} {P : Moment → Prop} {fuel calls forcings depth : Nat} {α : Type}
  {x : Evaluator → Nat → Effect α} {s : State}

theorem Through.eq_around (h : i.Through P fuel calls forcings x depth s)
    {eval' : Value → Env → Nat → Effect Value}
    (heval' : ∀ e env calls forcings depth t,
      P ⟨.evaluation e env, calls, forcings, depth, t.stack⟩ →
        eval' e env depth t = i.evalWithin fuel e env depth t) :
    x (i.around eval') depth s = x (i.evaluator fuel) depth s := by
  induction h with
  | primitive h => rfl
  | @bind fuel _ _ depth s _ _ x f _ _ ihx ihf =>
      dsimp only
      rw [Effect.bind_apply, Effect.bind_apply, ihx heval']
      cases hx : x (i.evaluator fuel) depth s with
      | ok a t => exact ihf a t hx heval'
      | error e t => rfl
  | explain f _ ih => simp only [Effect.explain, ih heval']
  | attempt _ ih => simp only [Effect.attempt, ih heval']
  | @ifForm fuel _ _ _ _ _ _ _ name _ _ ihx ihy =>
      cases hname : i.forms.contains name with
      | true =>
          have hform : (i.around eval').isForm name = true := hname
          have hform' : (i.evaluator fuel).isForm name = true := hname
          simp only [hform, hform', if_true]
          exact ihx hname heval'
      | false =>
          have hform : (i.around eval').isForm name = false := hname
          have hform' : (i.evaluator fuel).isForm name = false := hname
          simp only [hform, hform']
          exact ihy hname heval'
  | @withBuiltin fuel _ _ _ _ _ _ _ index _ _ ihx ihy =>
      cases hindex : i.builtins[index]? with
      | some b =>
          have hbuiltin : (i.around eval').builtin? index = some b := hindex
          have hbuiltin' : (i.evaluator fuel).builtin? index = some b := hindex
          simp only [hbuiltin, hbuiltin']
          exact ihx b hindex heval'
      | none =>
          have hbuiltin : (i.around eval').builtin? index = none := hindex
          have hbuiltin' : (i.evaluator fuel).builtin? index = none := hindex
          simp only [hbuiltin, hbuiltin']
          exact ihy hindex heval'
  | makeProcedure specs body env => rfl
  | unfinished hP => exact heval' _ _ _ _ _ _ hP
  | eval hP _ _ => exact heval' _ _ _ _ _ _ hP
  | @force fuel _ _ depth s e env _ ih =>
      dsimp only
      by_cases hd : depth < i.maxDepth
      · rw [(i.around eval').force_of_lt hd, (i.evaluator fuel).force_of_lt hd]
        exact ih hd heval'
      · have hle : i.maxDepth ≤ depth := Nat.le_of_not_lt hd
        rw [(i.around eval').force_of_le hle, (i.evaluator fuel).force_of_le hle]
        rfl
  | @call fuel _ _ depth s params body env args _ _ ih =>
      dsimp only
      by_cases h : depth < i.maxDepth ∧ params.length = args.length
      · obtain ⟨hd, hlen⟩ := h
        rw [(i.around eval').callProcedure_eq_inCall hd hlen,
          (i.evaluator fuel).callProcedure_eq_inCall hd hlen]
        exact Effect.inCall_congr (ih hd hlen heval')
      · obtain ⟨e, -, hfail⟩ := (i.evaluator fuel).callProcedure_eq_error body env s h
        exact (hfail eval').trans (hfail (i.evalWithin fuel)).symm

structure Exact (i : Interpreter) (m : Moment) : Prop where
  depth_eq : m.depth = m.calls + m.forcings
  depth_le : m.depth ≤ i.maxDepth
  stack_eq : m.stack.depth = 1 + m.calls
  stack_le : m.stack.depth ≤ 1 + i.maxDepth

namespace Exact

variable {task : Task} {stack : Env}

theorem base (h : stack.depth = 1) : i.Exact ⟨task, 0, 0, 0, stack⟩ := by
  constructor <;> simp [h]

section

variable (h : i.Exact ⟨task, calls, forcings, depth, stack⟩) (hd : depth < i.maxDepth)

include h hd

theorem force : i.Exact ⟨task, calls, forcings + 1, depth + 1, stack⟩ := by
  obtain ⟨hdepth, -, hstack, hle⟩ := h
  dsimp only at hdepth hstack hle
  constructor <;> dsimp only <;> omega

theorem call (frame : Nat) :
    i.Exact ⟨task, calls + 1, forcings, depth + 1, .scope .dynamic frame stack⟩ := by
  obtain ⟨hdepth, -, hstack, hle⟩ := h
  dsimp only at hdepth hstack hle
  constructor <;> dsimp only [Env.depth] <;> omega

end

end Exact

section

variable (hi : steady.Governs i)
  (heval : ∀ {e env calls forcings depth t},
    (∀ task, i.Exact ⟨task, calls, forcings, depth, t.stack⟩) →
      i.Through i.Exact fuel calls forcings (fun ev depth => ev.eval e env depth) depth t)

include hi heval

theorem through_sequence (es : List Value) (env : Env)
    (h : ∀ task, i.Exact ⟨task, calls, forcings, depth, s.stack⟩) :
    i.Through i.Exact fuel calls forcings (fun ev depth => ev.sequence es env depth) depth s := by
  induction es generalizing s with
  | nil => exact .primitive (Q := fun _ _ => True) (.pure Value.unspecified trivial)
  | cons e es ih =>
      cases es with
      | nil => exact heval h
      | cons e' es =>
          refine .bind (heval h) fun v t hv => ih fun task => ?_
          have hv : i.evalWithin fuel e env depth s = .ok v t := hv
          have hends : steady.Ends s (fun v m => steady.Allows .result m v)
              (i.evalWithin fuel e env depth s) :=
            hi.ends fuel (good_steady s) trivial trivial
          rw [hv] at hends
          rw [hends.1.stack_eq]
          exact h task

theorem through_routine {n : Nat} {Q : α → Nat → Prop} (hx : Routine steady n x Q)
    (hn : s.store.frames.size = n)
    (h : ∀ task, i.Exact ⟨task, calls, forcings, depth, s.stack⟩) :
    i.Through i.Exact fuel calls forcings x depth s := by
  induction hx generalizing s with
  | primitive hprimitive =>
      subst hn
      exact .primitive hprimitive
  | @bind _ _ _ x _ Q _ hx _ ihx ihf =>
      subst hn
      refine .bind (ihx rfl h) fun a t ha => ?_
      have hends : steady.Ends s Q (x (i.evaluator fuel) depth s) :=
        hi.ends_routine fuel hx (good_steady s)
      rw [ha] at hends
      obtain ⟨hafter, hQ⟩ := hends
      refine ihf a _ hafter.size_le hQ rfl fun task => ?_
      rw [hafter.stack_eq]
      exact h task
  | explain expr _ ih => exact .explain _ (ih hn h)
  | attempt _ ih => exact .attempt (ih hn h)
  | atDepth hany => exact hany.elim
  | eval _ _ => exact heval h
  | force _ _ => exact .force fun hd => heval fun task => (h task).force hd
  | call _ _ =>
      refine .call (fun hd _ => (h _).call hd _) fun hd _ => ?_
      exact through_sequence hi heval _ _ fun task => (h task).call hd _
  | ifForm name _ _ ihx ihy =>
      exact .ifForm (fun _ => ihx hn h) fun hname => ihy (hi.binds hname) hn h
  | withBuiltin index _ _ ihx ihy =>
      exact .withBuiltin (fun b hb => ihx b (hi.replies hb) hn h) fun _ => ihy hn h
  | makeProcedure _ _ _ => exact .makeProcedure _ _ _

end

theorem through_eval (hi : steady.Governs i) (fuel : Nat) {e : Value} {env : Env}
    (h : ∀ task, i.Exact ⟨task, calls, forcings, depth, s.stack⟩) :
    i.Through i.Exact fuel calls forcings (fun ev depth => ev.eval e env depth) depth s := by
  induction fuel generalizing e env calls forcings depth s with
  | zero => exact .unfinished (h _)
  | succ fuel ih =>
      have hcode : steady.Allows .code s.store.frames.size e := trivial
      have henv : steady.Scope s.store.frames.size env := trivial
      have hstep := Routine.step hi.laws hi.hosts hcode henv
      exact .eval (h _) (fun _ _ _ _ _ => h _) (through_routine hi ih hstep rfl h)

theorem evalWithin_of_invoked {head : String} {handler : Handler} {env : Env}
    (h : i.forms.invoked? s.store env head = some handler) (fuel : Nat) (operands : List Value)
    (depth : Nat) :
    i.evalWithin (fuel + 1) (.list (.symbol head :: operands)) env depth s =
      Effect.explain (Stop.locate (.list (.symbol head :: operands)))
        (handler (i.evaluator fuel) operands env depth) s := by
  rw [evalWithin, ← evaluator, Evaluator.step, Effect.explain, Effect.explain,
    Evaluator.evalList_of_invoked _ _ h]

def PassesDepth (i : Interpreter) : Prop :=
  ∀ entry ∈ i.forms.entries, entry ∈ FormTable.core.entries ∨ steady.Hosts entry.2

theorem PassesDepth.governs (h : i.PassesDepth) : steady.Governs i where
  laws := laws_steady
  text_code _ := trivial
  hosts entry hmem := by
    rcases h entry hmem with hcore | hhost
    · exact Routine.hosts_core laws_steady (fun _ _ => trivial) entry hcore
    · exact hhost
  binds _ _ := trivial
  replies {_ b} _ := by
    intro n args _
    cases (b.call args).result <;> trivial

theorem PassesDepth.callProcedure_eq (h : i.PassesDepth) (fuel : Nat) {params : List Param}
    (body : List Value) (env : Env) {args : List Value} (hd : depth < i.maxDepth)
    (hlen : params.length = args.length) :
    (i.evaluator fuel).callProcedure params body env args depth s =
      Effect.leave s.stack ((i.evaluator fuel).runBody params body env args depth s) := by
  have hes (e : Value) (_ : e ∈ body) :
      steady.Allows .code (s.called env ((params.map Param.name).zip args)).store.frames.size e :=
    trivial
  have henv : steady.Scope (s.called env ((params.map Param.name).zip args)).store.frames.size
      (.scope .lexical s.store.frames.size env) := trivial
  have hroutine := Routine.sequence laws_steady hes henv
  have hstack : (stateAfter ((i.evaluator fuel).runBody params body env args depth s)).stack =
      .scope .dynamic s.store.frames.size s.stack :=
    (h.governs.ends_routine fuel hroutine (good_steady _)).after.stack_eq
  exact (i.evaluator fuel).callProcedure_eq_leave hd hlen hstack

structure CountsDepth (i : Interpreter) : Prop where
  eval (fuel : Nat) (e : Value) (env : Env) (s : State) : s.stack.depth = 1 →
    i.Through i.Exact fuel 0 0 (fun ev depth => ev.eval e env depth) 0 s
  sequence (fuel : Nat) (es : List Value) (env : Env) (s : State) : s.stack.depth = 1 →
    i.Through i.Exact fuel 0 0 (fun ev depth => ev.sequence es env depth) 0 s
  apply (fuel : Nat) (f : Value) (args : List Value) (s : State) : s.stack.depth = 1 →
    i.Through i.Exact fuel 0 0 (fun ev depth => ev.apply f args depth) 0 s
  invoke (fuel : Nat) {name : String} {handler : Handler} (operands : List Value) (env : Env)
    (s : State) : i.forms.find? name = some handler → s.stack.depth = 1 →
    i.Exact ⟨.form handler operands env, 0, 0, 0, s.stack⟩ ∧
      i.Through i.Exact fuel 0 0 (fun ev depth => handler ev operands env depth) 0 s
  invoked (fuel : Nat) {head : String} {handler : Handler} (operands : List Value) (env : Env)
    (depth : Nat) (s : State) : i.forms.invoked? s.store env head = some handler →
    i.evalWithin (fuel + 1) (.list (.symbol head :: operands)) env depth s =
      Effect.explain (Stop.locate (.list (.symbol head :: operands)))
        (handler (i.evaluator fuel) operands env depth) s
  called (fuel : Nat) {params : List Param} (body : List Value) (env : Env) {args : List Value}
    {depth : Nat} (s : State) : depth < i.maxDepth → params.length = args.length →
    (i.evaluator fuel).apply (.procedure params body env) args depth s =
      Effect.leave s.stack ((i.evaluator fuel).sequence body
        (.scope .lexical s.store.frames.size env) (depth + 1)
        (s.called env ((params.map Param.name).zip args)))
  forced (fuel : Nat) (e : Value) (env : Env) {depth : Nat} (s : State) : depth < i.maxDepth →
    (i.evaluator fuel).force e env depth s = i.evalWithin fuel e env (depth + 1) s
  limited (fuel : Nat) (e : Value) (params : List Param) (body : List Value) (env : Env)
    (args : List Value) {depth : Nat} (s : State) : ¬ depth < i.maxDepth →
    (i.evaluator fuel).force e env depth s = .error (.failed (.depthLimit i.maxDepth none)) s ∧
      (i.evaluator fuel).apply (.procedure params body env) args depth s =
        .error (.failed (.depthLimit i.maxDepth none)) s
  delayed (fuel id : Nat) (e : Value) (scope env : Env) (depth : Nat) :
    i.evalWithin (fuel + 1) (.delayed id e scope) env depth = (i.evaluator fuel).force e scope depth
  found (fuel : Nat) {name : String} {id : Nat} {e : Value} {scope env : Env} (depth : Nat)
    {s : State} : i.forms.contains name = false →
    s.store.resolve env name = .ok (.delayed id e scope) →
    i.evalWithin (fuel + 1) (.symbol name) env depth s = (i.evaluator fuel).force e scope depth s
  replied (fuel : Nat) {index : Nat} {b : Builtin} {args : List Value} {id : Nat} {e : Value}
    {scope : Env} (name : String) (depth : Nat) (s : State) : i.builtins[index]? = some b →
    (b.call args).result = .ok (.delayed id e scope) →
    (i.evaluator fuel).apply (.builtin name index) args depth s =
      (i.evaluator fuel).force e scope depth { s with output := s.output ++ (b.call args).output }
  alone {P : Moment → Prop} {α : Type} {fuel calls forcings depth : Nat}
    {x : Evaluator → Nat → Effect α} {s : State} (eval' : Value → Env → Nat → Effect Value) :
    i.Through P fuel calls forcings x depth s →
    (∀ e env calls forcings depth t, P ⟨.evaluation e env, calls, forcings, depth, t.stack⟩ →
      eval' e env depth t = i.evalWithin fuel e env depth t) →
    x (i.around eval') depth s = x (i.evaluator fuel) depth s

theorem countsDepth (h : i.PassesDepth) : i.CountsDepth where
  eval fuel e env s hs := through_eval h.governs fuel fun _ => .base hs
  sequence fuel es env s hs :=
    through_sequence h.governs (through_eval h.governs fuel) es env fun _ => .base hs
  apply fuel f args s hs := by
    have hf : steady.Allows .result s.store.frames.size f := trivial
    have hargs (a : Value) (_ : a ∈ args) : steady.Allows .result s.store.frames.size a := trivial
    have hroutine := Routine.apply laws_steady hf (Straight.fit_results laws_steady f hargs)
    exact through_routine h.governs (through_eval h.governs fuel) hroutine rfl fun _ => .base hs
  invoke fuel name handler operands env s hhandler hs := by
    have hcode (e : Value) (_ : e ∈ operands) : steady.Allows .code s.store.frames.size e := trivial
    have henv : steady.Scope s.store.frames.size env := trivial
    have hroutine := h.governs.hosts _ (FormTable.mem_of_find? hhandler) hcode henv
    exact ⟨.base hs,
      through_routine h.governs (through_eval h.governs fuel) hroutine rfl fun _ => .base hs⟩
  invoked fuel _ _ operands _ depth _ h := evalWithin_of_invoked h fuel operands depth
  called fuel _ body env _ _ _ hd hlen := h.callProcedure_eq fuel body env hd hlen
  forced fuel e env _ s hd := congrFun ((i.evaluator fuel).force_of_lt hd e env) s
  limited fuel e params body env args _ s hd :=
    ⟨(i.evaluator fuel).force_of_le (Nat.le_of_not_lt hd) e env s,
      (i.evaluator fuel).callProcedure_of_le (Nat.le_of_not_lt hd) params body env args s⟩
  delayed _ _ _ _ _ _ := rfl
  found fuel _ _ _ _ _ depth _ hname hv := (i.evaluator fuel).evalSymbol_of_delayed hname hv depth
  replied fuel _ _ _ _ _ _ name depth s hget hv :=
    (i.evaluator fuel).apply_of_delayed hget hv name depth s
  alone _ h heval' := h.eq_around heval'

theorem countsDepth_hosting : hosting.PassesDepth ∧ hosting.CountsDepth := by
  have h : hosting.PassesDepth := by
    intro entry hmem
    rcases List.mem_append.mp hmem with hcore | hhost
    · exact .inl hcore
    · rw [List.mem_singleton.mp hhost]
      exact .inr (Routine.hosts_amongCalls laws_steady)
  exact ⟨h, countsDepth h⟩

end Interpreter

end PassingLisp
