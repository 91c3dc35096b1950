import PassingLisp.Error
import PassingLisp.Frame

namespace PassingLisp

structure Store where
  frames : Array Frame := #[]
  delays : Nat := 0

namespace Store

variable (σ : Store)

def frame (i : Nat) : Frame :=
  σ.frames[i]?.getD {}

def update (i : Nat) (change : Frame → Frame) : Store :=
  { σ with frames := σ.frames.modify i change }

def enter (parent : Env) (f : Frame) : Env × Store :=
  (.scope .lexical σ.frames.size parent, { σ with frames := σ.frames.push f })

def countDelay : Store :=
  { σ with delays := σ.delays + 1 }

def slots : Nat :=
  σ.frames.foldl (fun n f => n + f.bindings.length) 0

def get? : Env → String → Option Value
  | .empty, _ => none
  | .scope _ frame parent, name =>
      match (σ.frame frame).get? name with
      | some v => some v
      | none => get? parent name

def lookup (env : Env) (name : String) : Except Error Value :=
  match σ.get? env name with
  | some v => .ok v
  | none => .error (.unbound name)

def isDefined (env : Env) (name : String) : Bool :=
  env.frames.any fun i => (σ.frame i).binds name

def isLocallyDefined : Env → String → Bool
  | .empty, _ => false
  | .scope _ frame _, name => (σ.frame frame).binds name

/-- The value behind a chain of references. A chain with more links than there are bindings runs in
a circle. -/
def follow : Nat → Value → Except Stop Value
  | fuel, .reference name env =>
      match σ.get? env name with
      | none => .error (.failed (.unbound name))
      | some v =>
          match fuel with
          | 0 => .error .diverged
          | fuel + 1 => follow fuel v
  | _, v => .ok v

def resolve (env : Env) (name : String) : Except Stop Value :=
  match σ.get? env name with
  | none => .error (.failed (.unbound name))
  | some (.reference target scope) => σ.follow σ.slots (.reference target scope)
  | some v => .ok v

def holder? : Env → String → Option Nat
  | .empty, _ => none
  | .scope _ frame parent, name =>
      if (σ.frame frame).binds name then some frame else holder? parent name

def slotBy (beyond : Env → String → Except Stop (Nat × String)) (env : Env) (name : String) :
    Except Stop (Nat × String) :=
  match σ.holder? env name with
  | none => .error (.failed (.unbound name))
  | some i =>
      match (σ.frame i).get? name with
      | some (.reference target scope) => beyond scope target
      | _ => .ok (i, name)

def slotWithin : Nat → Env → String → Except Stop (Nat × String)
  | 0 => fun _ _ => .error .diverged
  | fuel + 1 => σ.slotBy (slotWithin fuel)

def slot (env : Env) (name : String) : Except Stop (Nat × String) :=
  σ.slotBy (fun scope target => σ.slotWithin σ.slots scope target) env name

def assign (env : Env) (name : String) (value : Value) : Except Stop Store :=
  match σ.slot env name with
  | .ok (i, target) => .ok (σ.update i (·.insert target value))
  | .error e => .error e

def undefinable (name : String) : Error :=
  .evaluation ("cannot define " ++ name ++ " in an empty environment")

def define (env : Env) (name : String) (value : Value) : Except Error Store :=
  match env with
  | .empty => .error (undefinable name)
  | .scope _ frame _ => .ok (σ.update frame (·.insert name value))

def extend (env : Env) (names : List String) (values : List Value) : Except Error (Env × Store) :=
  if names.length = values.length then .ok (σ.enter env (.ofList (names.zip values)))
  else .error (.arity names.length values.length)

def unbind (env : Env) (name : String) : Store :=
  env.frames.foldl (fun σ i => σ.update i (·.erase name)) σ

def unbindLocally : Env → String → Store
  | .empty, _ => σ
  | .scope _ frame _, name => σ.update frame (·.erase name)

def localNames : Env → List String
  | .empty => []
  | .scope _ frame _ => (σ.frame frame).names

def visible (env : Env) : List (String × Value) :=
  (env.frames.reverse.flatMap fun i => (σ.frame i).bindings).foldl
    (fun seen b => Frame.put b.1 b.2 seen) []

def listing (env : Env) : List (String × Value) :=
  (σ.visible env).mergeSort fun a b => decide (a.1 ≤ b.1)

@[simp] theorem size_frames_update (i : Nat) (change : Frame → Frame) :
    (σ.update i change).frames.size = σ.frames.size :=
  Array.size_modify

theorem frame_update_self {i : Nat} (h : i < σ.frames.size) (change : Frame → Frame) :
    (σ.update i change).frame i = change (σ.frame i) := by
  simp [frame, update, Array.getElem_modify, h]

theorem frame_update_of_ne {i j : Nat} (h : j ≠ i) (change : Frame → Frame) :
    (σ.update i change).frame j = σ.frame j := by
  simp [frame, update, Array.getElem?_modify, h.symm]

theorem frame_enter_new (parent : Env) (f : Frame) :
    (σ.enter parent f).2.frame σ.frames.size = f := by
  simp [frame, enter]

theorem frame_enter_old {i : Nat} (h : i < σ.frames.size) (parent : Env) (f : Frame) :
    (σ.enter parent f).2.frame i = σ.frame i := by
  simp [frame, enter, Array.getElem?_push, Nat.ne_of_lt h]

theorem isDefined_eq_isSome_get? (env : Env) (name : String) :
    σ.isDefined env name = (σ.get? env name).isSome := by
  induction env with
  | empty => rfl
  | scope link i parent ih =>
      simp only [isDefined, Env.frames, List.any_cons, get?, Frame.binds] at ih ⊢
      cases (σ.frame i).get? name <;> simp [ih]

theorem isSome_holder? (env : Env) (name : String) :
    (σ.holder? env name).isSome = (σ.get? env name).isSome := by
  induction env with
  | empty => rfl
  | scope link i parent ih =>
      cases h : (σ.frame i).get? name <;> simp [holder?, get?, Frame.binds, h, ih]

end Store

end PassingLisp
