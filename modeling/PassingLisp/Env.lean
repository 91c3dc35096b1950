namespace PassingLisp

inductive Link where
  | lexical
  | dynamic
  deriving DecidableEq

/-- A chain of scopes, newest first. Scopes name their frame by its place in the store, so chains
share frames; a frame is entered once on each kind of chain, so a scope is known by its link and
its frame. -/
inductive Env where
  | empty
  | scope (link : Link) (frame : Nat) (parent : Env)
  deriving DecidableEq

namespace Env

def parent : Env → Env
  | empty => empty
  | scope _ _ parent => parent

def isEmpty : Env → Bool
  | empty => true
  | scope .. => false

def depth : Env → Nat
  | empty => 0
  | scope _ _ parent => parent.depth + 1

def frames : Env → List Nat
  | empty => []
  | scope _ frame parent => frame :: parent.frames

def push (below : Env) : Env → Env
  | empty => below
  | scope _ frame _ => scope .dynamic frame below

@[simp] theorem length_frames (env : Env) : env.frames.length = env.depth := by
  induction env with
  | empty => rfl
  | scope _ _ _ ih => simp [frames, depth, ih]

theorem isEmpty_iff {env : Env} : env.isEmpty = true ↔ env = empty := by
  cases env <;> simp [isEmpty]

@[simp] theorem parent_push_scope (below : Env) (link : Link) (frame : Nat) (parent : Env) :
    (below.push (scope link frame parent)).parent = below := rfl

end Env

end PassingLisp
