import PassingLisp.Proofs.Routine

namespace PassingLisp

variable {D : Discipline} {Hosted : Handler → Prop} {α β : Type} {n : Nat}

inductive Straight (D : Discipline) (Hosted : Handler → Prop) :
    {α : Type} → Nat → (Evaluator → Nat → Effect α) → (α → Nat → Prop) → Prop where
  | primitive {α : Type} {n : Nat} {x : Effect α} {Q : α → Nat → Prop} (h : Primitive D n x Q)
      (hx : ∀ s, Effect.Unaware s x) : Straight D Hosted n (fun _ _ => x) Q
  | bind {α β : Type} {n : Nat} {x : Evaluator → Nat → Effect α}
      {f : Evaluator → Nat → α → Effect β} {Q : α → Nat → Prop} {R : β → Nat → Prop}
      (hx : Straight D Hosted n x Q)
      (hf : ∀ a m, n ≤ m → Q a m → Straight D Hosted m (fun ev depth => f ev depth a) R) :
      Straight D Hosted n (fun ev depth => x ev depth >>= f ev depth) R
  | explain {α : Type} {n : Nat} {x : Evaluator → Nat → Effect α} {Q : α → Nat → Prop}
      (expr : Value) (h : Straight D Hosted n x Q) :
      Straight D Hosted n (fun ev depth => Effect.explain (Stop.locate expr) (x ev depth)) Q
  | eval {n : Nat} {e : Value} {env : Env} (hc : D.Allows .code n e) (he : D.Scope n env) :
      Straight D Hosted n (fun ev depth => ev.eval e env depth) fun v m => D.Allows .result m v
  | force {n : Nat} {e : Value} {env : Env} (ht : D.Allows .text n e) (he : D.Scope n env) :
      Straight D Hosted n (fun ev depth => ev.force e env depth) fun v m => D.Allows .result m v
  | call {n : Nat} {params : List Param} {body : List Value} {env : Env} {args : List Value}
      (hf : D.Allows .result n (.procedure params body env))
      (ha : ∀ a ∈ args, D.Allows .argument n a) :
      Straight D Hosted n (fun ev depth => ev.callProcedure params body env args depth)
        fun v m => D.Allows .result m v
  | ifForm {α : Type} {n : Nat} {x y : Evaluator → Nat → Effect α} {Q : α → Nat → Prop}
      (name : String) (hx : Straight D Hosted n x Q)
      (hy : (∀ i, D.Binds i name) → Straight D Hosted n y Q) :
      Straight D Hosted n (fun ev depth => if ev.isForm name then x ev depth else y ev depth) Q
  | withBuiltin {α : Type} {n : Nat} {x : Builtin → Evaluator → Nat → Effect α}
      {y : Evaluator → Nat → Effect α} {Q : α → Nat → Prop} (index : Nat)
      (hx : ∀ b, D.Replies b → Straight D Hosted n (x b) Q) (hy : Straight D Hosted n y Q) :
      Straight D Hosted n (fun ev depth => match ev.builtin? index with
        | some b => x b ev depth
        | none => y ev depth) Q
  | makeProcedure {n : Nat} {specs body : List Value} {env : Env}
      (hs : ∀ s ∈ specs, D.Allows .code n s) (hb : ∀ e ∈ body, D.Allows .code n e)
      (he : D.Scope n env) :
      Straight D Hosted n (fun ev _ => Form.makeProcedure ev specs body env)
        fun v m => D.Allows .result m v
  | invoke {n : Nat} {handler : Handler} {operands : List Value} {env : Env}
      (hh : Hosted handler) (hc : ∀ e ∈ operands, D.Allows .code n e) (he : D.Scope n env) :
      Straight D Hosted n (fun ev depth => handler ev operands env depth)
        fun v m => D.Allows .result m v

def Discipline.HostsStraight (D : Discipline) (Hosted : Handler → Prop) (handler : Handler) :
    Prop :=
  ∀ {n operands env}, (∀ e ∈ operands, D.Allows .code n e) → D.Scope n env →
    Straight D Hosted n (fun ev depth => handler ev operands env depth)
      fun v m => D.Allows .result m v

theorem Straight.routine {x : Evaluator → Nat → Effect α} {Q : α → Nat → Prop}
    (hH : ∀ handler, Hosted handler → D.Hosts handler) (h : Straight D Hosted n x Q) :
    Routine D n x Q := by
  induction h with
  | primitive h _ => exact .primitive h
  | bind _ _ ihx ihf => exact .bind ihx ihf
  | explain expr _ ih => exact .explain expr ih
  | eval hc he => exact .eval hc he
  | force ht he => exact .force ht he
  | call hf ha => exact .call hf ha
  | ifForm name _ _ ihx ihy => exact .ifForm name ihx ihy
  | withBuiltin index _ _ ihx ihy => exact .withBuiltin index ihx ihy
  | makeProcedure hs hb he => exact .makeProcedure hs hb he
  | invoke hh hc he => exact hH _ hh hc he

namespace Straight

variable {x : Evaluator → Nat → Effect α} {Q R : α → Nat → Prop}

theorem pure (a : α) (h : Q a n) : Straight D Hosted n (fun _ _ => Pure.pure a) Q :=
  .primitive (.pure a h) fun _ _ => rfl

theorem raise {e : Error} (h : D.Raises e) :
    Straight D Hosted n (fun _ _ => (Effect.fail e : Effect α)) Q :=
  .primitive (.fail e h) fun _ _ => rfl

theorem fail (hL : D.Laws) {e : Error} (h : e.Raisable) :
    Straight D Hosted n (fun _ _ => (Effect.fail e : Effect α)) Q :=
  raise (hL.raises h)

theorem read (f : Store → α) (h : ∀ σ, Q (f σ) n) :
    Straight D Hosted n (fun _ _ => Effect.read f) Q :=
  .primitive (.read f h) fun _ _ => rfl

theorem print (text : String) :
    Straight D Hosted n (fun _ _ => Effect.print text) fun _ _ => True :=
  .primitive (.print text) fun _ _ => rfl

theorem freshDelay : Straight D Hosted n (fun _ _ => Effect.freshDelay) fun _ _ => True :=
  .primitive .freshDelay fun _ _ => rfl

theorem resolve {env : Env} (name : String) (he : D.Scope n env) :
    Straight D Hosted n (fun _ _ => Effect.resolve env name) fun v m => D.Allows .element m v := by
  refine .primitive (.resolve name he) fun s stack => ?_
  unfold Effect.resolve
  dsimp only
  cases s.store.resolve env name <;> rfl

theorem define {env : Env} {name : String} {v : Value} (he : D.Scope n env)
    (hb : ∀ i, D.Binds i name) (hv : D.Allows .result n v) :
    Straight D Hosted n (fun _ _ => Effect.define env name v) fun _ _ => True := by
  refine .primitive (.define he hb hv) fun s stack => ?_
  cases env <;> rfl

theorem assign {env : Env} {v : Value} (name : String) (he : D.Scope n env)
    (hv : D.Allows .result n v) :
    Straight D Hosted n (fun _ _ => Effect.assign env name v) fun _ _ => True := by
  refine .primitive (.assign name he hv) fun s stack => ?_
  unfold Effect.assign
  dsimp only
  cases s.store.slot env name <;> rfl

theorem unbind {env : Env} (name : String) (he : D.Scope n env) :
    Straight D Hosted n (fun _ _ => Effect.unbind env name) fun _ _ => True :=
  .primitive (.unbind name he) fun _ _ => rfl

theorem unbindLocally {env : Env} (name : String) (he : D.Scope n env) :
    Straight D Hosted n (fun _ _ => Effect.unbindLocally env name) fun _ _ => True :=
  .primitive (.unbindLocally name he) fun _ _ => rfl

theorem weaken (h : Straight D Hosted n x Q) (hq : ∀ a m, n ≤ m → Q a m → R a m) :
    Straight D Hosted n x R := by
  have hb : Straight D Hosted n (fun ev depth => x ev depth >>= Pure.pure) R :=
    .bind h fun a m hm ha => pure a (hq a m hm ha)
  simpa only [bind_pure] using hb

theorem ofExcept {r : Except Error α} (hok : ∀ a, r = .ok a → Q a n)
    (herr : ∀ e, r = .error e → D.Raises e) :
    Straight D Hosted n (fun _ _ => Effect.ofExcept r) Q := by
  cases r with
  | ok a => exact pure a (hok a rfl)
  | error e => exact raise (herr e rfl)

theorem inOrder {f : Evaluator → Nat → α → Effect β} {P : β → Nat → Prop}
    (hP : ∀ b k m, k ≤ m → P b k → P b m) {as : List α}
    (h : ∀ a ∈ as, ∀ m, n ≤ m → Straight D Hosted m (fun ev depth => f ev depth a) P) :
    Straight D Hosted n (fun ev depth => Effect.inOrder (f ev depth) as)
      fun bs m => ∀ b ∈ bs, P b m := by
  induction as generalizing n with
  | nil => exact pure [] (by simp)
  | cons a as ih =>
      refine .bind (h a (by simp) n (Nat.le_refl n)) fun b m hm hb => ?_
      have htail := ih fun a' ha' k hk => h a' (by simp [ha']) k (Nat.le_trans hm hk)
      refine .bind htail fun bs k hk hbs => pure _ ?_
      intro b' hb'
      rcases List.mem_cons.mp hb' with rfl | hmem
      · exact hP _ m k hk hb
      · exact hbs b' hmem

end Straight

end PassingLisp
