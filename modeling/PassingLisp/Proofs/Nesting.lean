import PassingLisp.Proofs.Keeping

namespace PassingLisp

/-- How an evaluation in `env` finds the calls in progress if it is begun by another one that found
them as `found`: in the same way, or, as the body of a call, with the frame of its scope on top. -/
def Env.Inside (found env stack : Env) : Prop :=
  stack = found ∨ ∃ frame parent, env = .scope .lexical frame parent ∧
    stack = .scope .dynamic frame found

namespace Effect

variable {α : Type}

theorem inCall_eq_leave {body : Effect α} {link : Link} {frame : Nat} {parent : Env} {s : State}
    (h : (stateAfter (body { s with stack := .scope .dynamic frame s.stack })).stack =
      .scope .dynamic frame s.stack) :
    inCall (.scope link frame parent) body s =
      leave s.stack (body { s with stack := .scope .dynamic frame s.stack }) := by
  simp only [inCall, Env.push]
  generalize body _ = r at h
  cases r with
  | ok a t =>
      simp only [stateAfter] at h
      simp only [leave, h, Env.parent]
  | error e t =>
      simp only [stateAfter] at h
      simp only [leave, h, Env.parent]

end Effect

def State.called (s : State) (env : Env) (bindings : List (String × Value)) : State :=
  { s with
    store := (s.store.enter env (.ofList bindings)).2
    stack := .scope .dynamic s.store.frames.size s.stack }

@[simp] theorem State.size_called (s : State) (env : Env) (bindings : List (String × Value)) :
    (s.called env bindings).store.frames.size = s.store.frames.size + 1 :=
  Store.size_enter env _

namespace Evaluator

variable (ev : Evaluator) {params : List Param} {body : List Value} {env : Env}
  {args : List Value} {depth : Nat} {s : State}

def runBody (params : List Param) (body : List Value) (env : Env) (args : List Value)
    (depth : Nat) (s : State) : Effect.Result Value :=
  ev.sequence body (.scope .lexical s.store.frames.size env) (depth + 1)
    (s.called env ((params.map Param.name).zip args))

theorem callProcedure_eq_inCall (hd : depth < ev.maxDepth) (hlen : params.length = args.length) :
    ev.callProcedure params body env args depth s =
      Effect.inCall (.scope .lexical s.store.frames.size env)
        (ev.sequence body (.scope .lexical s.store.frames.size env) (depth + 1))
        { s with store := (s.store.enter env (.ofList ((params.map Param.name).zip args))).2 } := by
  have hlen' : (params.map Param.name).length = args.length := by simpa using hlen
  have hdescend : ev.descend depth s = .ok (depth + 1) s := by
    rw [ev.descend_of_lt hd]
    rfl
  simp only [callProcedure, Effect.bind_apply, hdescend, Effect.extend, hlen', if_true]

theorem callProcedure_eq_leave (hd : depth < ev.maxDepth) (hlen : params.length = args.length)
    (hstack : (stateAfter (ev.runBody params body env args depth s)).stack =
      .scope .dynamic s.store.frames.size s.stack) :
    ev.callProcedure params body env args depth s =
      Effect.leave s.stack (ev.runBody params body env args depth s) := by
  rw [ev.callProcedure_eq_inCall hd hlen]
  exact Effect.inCall_eq_leave hstack

theorem callProcedure_eq_error (body : List Value) (env : Env) (s : State)
    (h : ¬ (depth < ev.maxDepth ∧ params.length = args.length)) :
    ∃ e : Error, e.Raisable ∧ ∀ eval' : Value → Env → Nat → Effect Value,
      { ev with eval := eval' }.callProcedure params body env args depth s =
        .error (.failed e) s := by
  by_cases hd : depth < ev.maxDepth
  · have hlen : (params.map Param.name).length ≠ args.length := by
      intro hlen
      exact h ⟨hd, by simpa using hlen⟩
    refine ⟨.arity _ _, hlen, fun eval' => ?_⟩
    simp only [callProcedure, descend, Effect.bind_apply, Nat.not_le_of_lt hd, if_false,
      Effect.pure_apply, Effect.extend, hlen]
  · refine ⟨.evaluation ("Evaluation depth limit exceeded (max: " ++ toString ev.maxDepth ++ ")"),
      trivial, fun eval' => ?_⟩
    simp only [callProcedure, descend, Effect.bind_apply, Nat.le_of_not_lt hd, if_true,
      Effect.fail_apply]

end Evaluator

namespace Discipline

variable {D : Discipline} {α β : Type} {s t : State} {env : Env} {depth : Nat}
  {ev : Evaluator} {eval' : Value → Env → Nat → Effect Value}

def Same (D : Discipline) (s : State) (Q : α → Nat → Prop) (x y : Effect α) : Prop :=
  x s = y s ∧ D.Ends s Q (x s)

def Serves (D : Discipline) (ev : Evaluator) (eval' : Value → Env → Nat → Effect Value)
    (asked : Env → Env → Prop) : Prop :=
  ∀ {e env depth s}, D.Good s → D.Allows .code s.store.frames.size e →
    D.Scope s.store.frames.size env → asked env s.stack →
    D.Same s (fun v m => D.Allows .result m v) (ev.eval e env depth) (eval' e env depth)

theorem Same.refl {Q : α → Nat → Prop} {x : Effect α} (h : D.Ends s Q (x s)) : D.Same s Q x x :=
  ⟨rfl, h⟩

theorem After.ends {Q : α → Nat → Prop} {r : Effect.Result α} (h : D.After s t)
    (h' : D.Ends t Q r) : D.Ends s Q r := by
  match r, h' with
  | .ok _ _, h' => exact ⟨h.trans h'.1, h'.2⟩
  | .error (.failed _) _, h' => exact ⟨h.trans h'.1, h'.2⟩
  | .error .diverged _, h' => exact h.trans h'

theorem Same.bind {Q : α → Nat → Prop} {R : β → Nat → Prop} {x y : Effect α}
    {f g : α → Effect β} (hx : D.Same s Q x y)
    (hf : ∀ a t, D.After s t → Q a t.store.frames.size → D.Same t R (f a) (g a)) :
    D.Same s R (x >>= f) (y >>= g) := by
  obtain ⟨heq, hends⟩ := hx
  unfold Same
  rw [Effect.bind_apply, Effect.bind_apply, ← heq]
  match x s, hends with
  | .ok a t, hends =>
      obtain ⟨hfg, hf'⟩ := hf a t hends.1 hends.2
      exact ⟨hfg, hends.1.ends hf'⟩
  | .error (.failed _) _, hends => exact ⟨rfl, hends⟩
  | .error .diverged _, hends => exact ⟨rfl, hends⟩

theorem Serves.sequence (hL : D.Laws) {asked : Env → Env → Prop}
    (hev : D.Serves ev eval' asked) {es : List Value}
    (hg : D.Good s) (hc : ∀ e ∈ es, D.Allows .code s.store.frames.size e)
    (he : D.Scope s.store.frames.size env) (hin : asked env s.stack) :
    D.Same s (fun v m => D.Allows .result m v) (ev.sequence es env depth)
      ({ ev with eval := eval' }.sequence es env depth) := by
  induction es generalizing s with
  | nil => exact .refl ⟨.refl hg, hL.plain trivial⟩
  | cons e es ih =>
      cases es with
      | nil => exact hev hg (hc e (by simp)) he hin
      | cons e' es =>
          refine (hev hg (hc e (by simp)) he hin).bind fun v t ht _ => ?_
          exact ih ht.good (fun e'' h => hL.mono ht.size_le (hc e'' (by simp [h])))
            (hL.scope_mono ht.size_le he) (ht.stack_eq ▸ hin)

theorem Good.called (hL : D.Laws) (hg : D.Good s) {params : List Param} {body : List Value}
    {args : List Value} (hf : D.Allows .result s.store.frames.size (.procedure params body env))
    (ha : ∀ a ∈ args, D.Allows .argument s.store.frames.size a) :
    D.Good (s.called env ((params.map Param.name).zip args)) := by
  have hle : s.store.frames.size ≤ s.store.frames.size + 1 := Nat.le_succ _
  refine ⟨?_, ?_, ?_⟩
  · rw [State.size_called]
    exact hL.live_mono hle hg.live
  · rw [State.size_called]
    exact hL.scope_stack hg.stack
  · intro i ho b hb
    rw [State.size_called]
    simp only [State.called, Store.frame_enter] at hb
    split at hb
    · rename_i hi
      subst hi
      have hzip := List.of_mem_zip (Frame.mem_ofList hb)
      obtain ⟨p, hp, hname⟩ := List.mem_map.mp hzip.1
      refine ⟨hname ▸ hL.procedure_binds hf hg.live (Nat.le_refl _) p hp, ?_⟩
      exact hL.argument_slot hg.live (ha b.2 hzip.2)
    · have hold := hg.slots i ho b hb
      exact ⟨hold.1, hL.mono hle hold.2⟩

theorem After.leave (hL : D.Laws) (hg : D.Good s) {bindings : List (String × Value)}
    (h : D.After (s.called env bindings) t) : D.After s { t with stack := s.stack } := by
  have hle : s.store.frames.size ≤ t.store.frames.size := by
    have := h.size_le
    rw [State.size_called] at this
    omega
  refine ⟨⟨h.good.live, hL.scope_mono hle hg.stack, h.good.slots⟩, hle, rfl, ?_⟩
  intro i hi ho
  have hclosed := h.closed i (by rw [State.size_called]; omega) ho
  simp only [State.called, Store.frame_enter, Nat.ne_of_lt hi, if_false] at hclosed
  exact hclosed

theorem Ends.leave (hL : D.Laws) (hg : D.Good s) {bindings : List (String × Value)}
    {Q : α → Nat → Prop} {r : Effect.Result α} (h : D.Ends (s.called env bindings) Q r) :
    D.Ends s Q (Effect.leave s.stack r) := by
  match r, h with
  | .ok _ _, h => exact ⟨h.1.leave hL hg, h.2⟩
  | .error (.failed _) _, h => exact ⟨h.1.leave hL hg, h.2⟩
  | .error .diverged _, h => exact After.leave hL hg h

theorem Serves.runBody (hL : D.Laws) (hT : ∀ {n v}, D.Allows .text n v → D.Allows .code n v)
    (hev : D.Serves ev eval' s.stack.Inside) (depth : Nat) (hg : D.Good s)
    {params : List Param} {body : List Value} {args : List Value}
    (hf : D.Allows .result s.store.frames.size (.procedure params body env))
    (ha : ∀ a ∈ args, D.Allows .argument s.store.frames.size a) :
    D.Same (s.called env ((params.map Param.name).zip args)) (fun v m => D.Allows .result m v)
      (ev.sequence body (.scope .lexical s.store.frames.size env) (depth + 1))
      ({ ev with eval := eval' }.sequence body (.scope .lexical s.store.frames.size env)
        (depth + 1)) := by
  have hle : s.store.frames.size ≤ s.store.frames.size + 1 := Nat.le_succ _
  have hin : s.stack.Inside (.scope .lexical s.store.frames.size env)
      (s.called env ((params.map Param.name).zip args)).stack := .inr ⟨_, _, rfl, rfl⟩
  refine hev.sequence hL (hg.called hL hf ha) ?_ ?_ hin
  · rw [State.size_called]
    exact fun e h => hT (hL.mono hle (hL.procedure_text hf e h))
  · rw [State.size_called]
    exact hL.scope_call (hL.procedure_scope hf)

theorem Serves.call (hL : D.Laws) (hT : ∀ {n v}, D.Allows .text n v → D.Allows .code n v)
    (hev : D.Serves ev eval' s.stack.Inside) (hg : D.Good s)
    {params : List Param} {body : List Value} {args : List Value}
    (hf : D.Allows .result s.store.frames.size (.procedure params body env))
    (ha : ∀ a ∈ args, D.Allows .argument s.store.frames.size a) :
    D.Same s (fun v m => D.Allows .result m v) (ev.callProcedure params body env args depth)
      ({ ev with eval := eval' }.callProcedure params body env args depth) := by
  by_cases h : depth < ev.maxDepth ∧ params.length = args.length
  · obtain ⟨hd, hlen⟩ := h
    obtain ⟨heq, hends⟩ := hev.runBody hL hT depth hg hf ha
    have hstack := hends.after.stack_eq
    have hleave := ev.callProcedure_eq_leave hd hlen hstack
    refine ⟨hleave.trans ?_, hleave ▸ hends.leave hL hg⟩
    rw [heq] at hstack
    rw [Evaluator.callProcedure_eq_leave { ev with eval := eval' } hd hlen hstack]
    exact congrArg _ heq
  · obtain ⟨e, he, hfail⟩ := ev.callProcedure_eq_error body env s h
    refine ⟨(hfail ev.eval).trans (hfail eval').symm, ?_⟩
    rw [hfail ev.eval]
    exact ⟨.refl hg, hL.raises he⟩

theorem Serves.force (hL : D.Laws) (hT : ∀ {n v}, D.Allows .text n v → D.Allows .code n v)
    (hev : D.Serves ev eval' s.stack.Inside) (hg : D.Good s) {e : Value}
    (ht : D.Allows .text s.store.frames.size e) (he : D.Scope s.store.frames.size env) :
    D.Same s (fun v m => D.Allows .result m v) (ev.force e env depth)
      ({ ev with eval := eval' }.force e env depth) := by
  have hdescend : D.Same s (fun _ m => m = s.store.frames.size) (ev.descend depth)
      ({ ev with eval := eval' }.descend depth) := by
    refine .refl ?_
    unfold Evaluator.descend
    split
    · exact ⟨.refl hg, hL.raises trivial⟩
    · exact ⟨.refl hg, rfl⟩
  refine hdescend.bind fun k t hafter hsize => ?_
  rw [← hsize] at ht he
  exact hev hafter.good (hT ht) he (.inl hafter.stack_eq)

theorem Same.explain (hL : D.Laws) {Q : α → Nat → Prop} {x y : Effect α} (expr : Value)
    (h : D.Same s Q x y) :
    D.Same s Q (Effect.explain (Stop.locate expr) x) (Effect.explain (Stop.locate expr) y) := by
  obtain ⟨heq, hends⟩ := h
  unfold Same Effect.explain
  rw [← heq]
  match x s, hends with
  | .ok _ _, hends => exact ⟨rfl, hends⟩
  | .error (.failed _) _, hends => exact ⟨rfl, hends.1, hL.raises_locate hends.2 expr⟩
  | .error .diverged _, hends => exact ⟨rfl, hends⟩

theorem Same.attempt {Q : α → Nat → Prop} {x y : Effect α} (h : D.Same s Q x y) :
    D.Same s (fun r m => ∀ a, r = .ok a → Q a m) (Effect.attempt x) (Effect.attempt y) := by
  obtain ⟨heq, hends⟩ := h
  unfold Same Effect.attempt
  rw [← heq]
  match x s, hends with
  | .ok _ _, hends => exact ⟨rfl, hends.1, fun _ ha => Except.ok.inj ha ▸ hends.2⟩
  | .error (.failed _) _, hends => exact ⟨rfl, hends.1, fun _ ha => nomatch ha⟩
  | .error .diverged _, hends => exact ⟨rfl, hends⟩

theorem ends_makeProcedure (hL : D.Laws) (hA : D.Admits ev) (hg : D.Good s)
    {specs body : List Value} (hs : ∀ v ∈ specs, D.Allows .code s.store.frames.size v)
    (hb : ∀ e ∈ body, D.Allows .code s.store.frames.size e)
    (he : D.Scope s.store.frames.size env) :
    D.Ends s (fun v m => D.Allows .result m v) (Form.makeProcedure ev specs body env s) := by
  unfold Form.makeProcedure
  cases h : Form.params ev.isForm specs with
  | error e => exact ⟨.refl hg, hL.raises (Form.paramsAfter_raisable h)⟩
  | ok ps =>
      have hbinds (p : Param) (hp : p ∈ ps) (i : Nat) : D.Binds i p.name :=
        hA.binds (Form.isForm_of_paramsAfter h p hp) i
      exact ⟨.refl hg, hL.closure hs h hbinds (fun e h => hL.code_text (hb e h)) he⟩

end Discipline

open Discipline

theorem Routine.same {D : Discipline} (hL : D.Laws)
    (hT : ∀ {n v}, D.Allows .text n v → D.Allows .code n v) {ev : Evaluator} (hA : D.Admits ev)
    {eval' : Value → Env → Nat → Effect Value} {found : Env} (hev : D.Serves ev eval' found.Inside)
    {α : Type} {n : Nat} {x : Evaluator → Nat → Effect α} {Q : α → Nat → Prop}
    (h : Routine D n x Q) {s : State} {depth : Nat} (hn : s.store.frames.size = n) (hg : D.Good s)
    (hs : s.stack = found) : D.Same s Q (x ev depth) (x { ev with eval := eval' } depth) := by
  induction h generalizing s depth with
  | primitive h => exact .refl (h.ends hL hn hg)
  | bind hx hf ihx ihf =>
      subst hn
      refine (ihx rfl hg hs).bind fun a t ht ha => ?_
      exact ihf a _ ht.size_le ha rfl ht.good (ht.stack_eq.trans hs)
  | explain expr h ih => exact (ih hn hg hs).explain hL expr
  | attempt h ih => exact (ih hn hg hs).attempt
  | atDepth hd g h ih => exact ih depth hn hg hs
  | eval hc he =>
      subst hn
      exact hev hg hc he (.inl hs)
  | force ht he =>
      subst hn hs
      exact hev.force hL hT hg ht he
  | call hf ha =>
      subst hn hs
      exact hev.call hL hT hg hf ha
  | ifForm name hx hy ihx ihy =>
      cases hf : ev.isForm name with
      | true =>
          simp only [hf, if_true]
          exact ihx hn hg hs
      | false =>
          simp only [hf]
          exact ihy (hA.binds hf) hn hg hs
  | withBuiltin index hx hy ihx ihy =>
      cases hb : ev.builtin? index with
      | some b =>
          simp only [hb]
          exact ihx b (hA.replies hb) hn hg hs
      | none =>
          simp only [hb]
          exact ihy hn hg hs
  | makeProcedure hs hb he =>
      subst hn
      exact .refl (ends_makeProcedure hL hA hg hs hb he)

end PassingLisp
