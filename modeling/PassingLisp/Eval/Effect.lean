import PassingLisp.Builtin
import PassingLisp.Store

namespace PassingLisp

/-- What an evaluation changes: the frames, the scopes of the calls in progress with the newest on
top, and what was printed. -/
structure State where
  store : Store := {}
  stack : Env := .empty
  output : String := ""

abbrev Effect := EStateM Stop State

namespace Effect

variable {α β : Type}

def fail (e : Error) : Effect α :=
  throw (.failed e)

def ofExcept : Except Error α → Effect α
  | .ok a => pure a
  | .error e => fail e

def read (f : Store → α) : Effect α := fun s =>
  .ok (f s.store) s

def stack : Effect Env := fun s =>
  .ok s.stack s

def print (text : String) : Effect Unit := fun s =>
  .ok () { s with output := s.output ++ text }

def freshDelay : Effect Nat := fun s =>
  .ok s.store.delays { s with store := s.store.countDelay }

def lookup (env : Env) (name : String) : Effect Value := fun s =>
  match s.store.lookup env name with
  | .ok v => .ok v s
  | .error e => .error (.failed e) s

def resolve (env : Env) (name : String) : Effect Value := fun s =>
  match s.store.resolve env name with
  | .ok v => .ok v s
  | .error e => .error e s

def assign (env : Env) (name : String) (value : Value) : Effect Unit := fun s =>
  match s.store.slot env name with
  | .ok (i, target) => .ok () { s with store := s.store.update i (·.insert target value) }
  | .error e => .error e s

def define (env : Env) (name : String) (value : Value) : Effect Unit := fun s =>
  match env with
  | .empty => .error (.failed (Store.undefinable name)) s
  | .scope _ frame _ => .ok () { s with store := s.store.update frame (·.insert name value) }

def unbind (env : Env) (name : String) : Effect Unit := fun s =>
  .ok () { s with store := s.store.unbind env name }

def unbindLocally (env : Env) (name : String) : Effect Unit := fun s =>
  .ok () { s with store := s.store.unbindLocally env name }

def extend (env : Env) (names : List String) (values : List Value) : Effect Env := fun s =>
  if names.length = values.length then
    .ok (.scope .lexical s.store.frames.size env)
      { s with store := (s.store.enter env (.ofList (names.zip values))).2 }
  else .error (.failed (.arity names.length values.length)) s

def inCall (env : Env) (body : Effect α) : Effect α := fun s =>
  match body { s with stack := s.stack.push env } with
  | .ok a s => .ok a { s with stack := s.stack.parent }
  | .error e s => .error e { s with stack := s.stack.parent }

def explain (f : Stop → Stop) (x : Effect α) : Effect α := fun s =>
  match x s with
  | .ok a s => .ok a s
  | .error e s => .error (f e) s

def inOrder (f : α → Effect β) : List α → Effect (List β)
  | [] => pure []
  | a :: as => do
      let b ← f a
      let bs ← inOrder f as
      pure (b :: bs)

theorem pure_apply (a : α) (s : State) : (pure a : Effect α) s = .ok a s := rfl

theorem bind_apply (x : Effect α) (f : α → Effect β) (s : State) :
    (x >>= f) s = match x s with
      | .ok a s => f a s
      | .error e s => .error e s := by
  cases h : x s <;> simp [bind, EStateM.bind, h]

@[simp] theorem fail_apply (e : Error) (s : State) :
    (fail e : Effect α) s = .error (.failed e) s := rfl

theorem assign_apply (env : Env) (name : String) (value : Value) (s : State) :
    assign env name value s = match s.store.assign env name value with
      | .ok σ => .ok () { s with store := σ }
      | .error e => .error e s := by
  unfold assign Store.assign
  split <;> simp_all

theorem define_apply (env : Env) (name : String) (value : Value) (s : State) :
    define env name value s = match s.store.define env name value with
      | .ok σ => .ok () { s with store := σ }
      | .error e => .error (.failed e) s := by
  cases env <;> rfl

theorem extend_apply (env : Env) (names : List String) (values : List Value) (s : State) :
    extend env names values s = match s.store.extend env names values with
      | .ok (scope, σ) => .ok scope { s with store := σ }
      | .error e => .error (.failed e) s := by
  unfold extend Store.extend
  split <;> rfl

end Effect

end PassingLisp
