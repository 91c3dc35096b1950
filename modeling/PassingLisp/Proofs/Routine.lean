import PassingLisp.Proofs.Discipline

namespace PassingLisp

namespace Effect

abbrev Result (α : Type) := EStateM.Result Stop State α

variable {α : Type}

def attempt (x : Effect α) : Effect (Except Error α) := fun s =>
  match x s with
  | .ok a s => .ok (.ok a) s
  | .error (.failed e) s => .ok (.error e) s
  | .error .diverged s => .error .diverged s

def leave (stack : Env) : Result α → Result α
  | .ok a s => .ok a { s with stack := stack }
  | .error e s => .error e { s with stack := stack }

def Unaware (s : State) (x : Effect α) : Prop :=
  ∀ stack, x { s with stack := stack } = leave stack (x s)

end Effect

variable {D : Discipline} {α : Type} {n : Nat}

inductive Primitive (D : Discipline) (n : Nat) :
    {α : Type} → Effect α → (α → Nat → Prop) → Prop where
  | pure {α : Type} {Q : α → Nat → Prop} (a : α) (h : Q a n) : Primitive D n (pure a) Q
  | fail {α : Type} {Q : α → Nat → Prop} (e : Error) (h : D.Raises e) :
      Primitive D n (Effect.fail e) Q
  | read {α : Type} {Q : α → Nat → Prop} (f : Store → α) (h : ∀ σ, Q (f σ) n) :
      Primitive D n (Effect.read f) Q
  | stack : Primitive D n Effect.stack fun env m => D.Scope m env
  | print (text : String) : Primitive D n (Effect.print text) fun _ _ => True
  | freshDelay : Primitive D n Effect.freshDelay fun _ _ => True
  | resolve {env : Env} (name : String) (he : D.Scope n env) :
      Primitive D n (Effect.resolve env name) fun v m => D.Allows .element m v
  | define {env : Env} {name : String} {v : Value} (he : D.Scope n env)
      (hb : ∀ i, D.Binds i name) (hv : D.Allows .result n v) :
      Primitive D n (Effect.define env name v) fun _ _ => True
  | assign {env : Env} {v : Value} (name : String) (he : D.Scope n env)
      (hv : D.Allows .result n v) : Primitive D n (Effect.assign env name v) fun _ _ => True
  | unbind {env : Env} (name : String) (he : D.Scope n env) :
      Primitive D n (Effect.unbind env name) fun _ _ => True
  | unbindLocally {env : Env} (name : String) (he : D.Scope n env) :
      Primitive D n (Effect.unbindLocally env name) fun _ _ => True

/-- A computation made of primitive steps and of what an evaluator offers, whichever evaluator that
is. It starts while there are `n` frames, and what it answers has the property at its end. -/
inductive Routine (D : Discipline) :
    {α : Type} → Nat → (Evaluator → Nat → Effect α) → (α → Nat → Prop) → Prop where
  | primitive {α : Type} {n : Nat} {x : Effect α} {Q : α → Nat → Prop} (h : Primitive D n x Q) :
      Routine D n (fun _ _ => x) Q
  | bind {α β : Type} {n : Nat} {x : Evaluator → Nat → Effect α}
      {f : Evaluator → Nat → α → Effect β} {Q : α → Nat → Prop} {R : β → Nat → Prop}
      (hx : Routine D n x Q)
      (hf : ∀ a m, n ≤ m → Q a m → Routine D m (fun ev depth => f ev depth a) R) :
      Routine D n (fun ev depth => x ev depth >>= f ev depth) R
  | explain {α : Type} {n : Nat} {x : Evaluator → Nat → Effect α} {Q : α → Nat → Prop}
      (expr : Value) (h : Routine D n x Q) :
      Routine D n (fun ev depth => Effect.explain (Stop.locate expr) (x ev depth)) Q
  | attempt {α : Type} {n : Nat} {x : Evaluator → Nat → Effect α} {Q : α → Nat → Prop}
      (h : Routine D n x Q) :
      Routine D n (fun ev depth => Effect.attempt (x ev depth))
        fun r m => ∀ a, r = .ok a → Q a m
  | atDepth {α : Type} {n : Nat} {x : Nat → Evaluator → Nat → Effect α} {Q : α → Nat → Prop}
      (hd : D.AnyDepth) (g : Nat → Nat) (h : ∀ k, Routine D n (x k) Q) :
      Routine D n (fun ev depth => x depth ev (g depth)) Q
  | eval {n : Nat} {e : Value} {env : Env} (hc : D.Allows .code n e) (he : D.Scope n env) :
      Routine D n (fun ev depth => ev.eval e env depth) fun v m => D.Allows .result m v
  | force {n : Nat} {e : Value} {env : Env} (ht : D.Allows .text n e) (he : D.Scope n env) :
      Routine D n (fun ev depth => ev.force e env depth) fun v m => D.Allows .result m v
  | call {n : Nat} {params : List Param} {body : List Value} {env : Env} {args : List Value}
      (hf : D.Allows .result n (.procedure params body env))
      (ha : ∀ a ∈ args, D.Allows .argument n a) :
      Routine D n (fun ev depth => ev.callProcedure params body env args depth)
        fun v m => D.Allows .result m v
  | ifForm {α : Type} {n : Nat} {x y : Evaluator → Nat → Effect α} {Q : α → Nat → Prop}
      (name : String) (hx : Routine D n x Q) (hy : (∀ i, D.Binds i name) → Routine D n y Q) :
      Routine D n (fun ev depth => if ev.isForm name then x ev depth else y ev depth) Q
  | withBuiltin {α : Type} {n : Nat} {x : Builtin → Evaluator → Nat → Effect α}
      {y : Evaluator → Nat → Effect α} {Q : α → Nat → Prop} (index : Nat)
      (hx : ∀ b, D.Replies b → Routine D n (x b) Q) (hy : Routine D n y Q) :
      Routine D n (fun ev depth => match ev.builtin? index with
        | some b => x b ev depth
        | none => y ev depth) Q
  | makeProcedure {n : Nat} {specs body : List Value} {env : Env}
      (hs : ∀ s ∈ specs, D.Allows .code n s) (hb : ∀ e ∈ body, D.Allows .code n e)
      (he : D.Scope n env) :
      Routine D n (fun ev _ => Form.makeProcedure ev specs body env)
        fun v m => D.Allows .result m v

def Discipline.Hosts (D : Discipline) (handler : Handler) : Prop :=
  ∀ {n operands env}, (∀ e ∈ operands, D.Allows .code n e) → D.Scope n env →
    Routine D n (fun ev depth => handler ev operands env depth) fun v m => D.Allows .result m v

theorem Routine.pure {Q : α → Nat → Prop} (a : α) (h : Q a n) :
    Routine D n (fun _ _ => Pure.pure a) Q :=
  .primitive (.pure a h)

end PassingLisp
