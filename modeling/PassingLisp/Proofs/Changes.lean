import Mathlib.Logic.Relation
import PassingLisp.Proofs.Calls
import PassingLisp.Proofs.Reachable

namespace PassingLisp

namespace Frame

variable {names names' : List String} {name : String} {value : Value}

inductive Relists (name : String) : List String → List String → Prop where
  | kept (names : List String) : Relists name names names
  | added {names : List String} (h : name ∉ names) : Relists name names (names ++ [name])
  | removed (names : List String) : Relists name names (names.filter (· ≠ name))

theorem Relists.nodup (h : Relists name names names') (hn : names.Nodup) : names'.Nodup := by
  cases h with
  | kept => exact hn
  | added hname =>
      refine List.nodup_append.mpr ⟨hn, by simp, fun a ha b hb => ?_⟩
      rw [List.mem_singleton.mp hb]
      rintro rfl
      exact hname ha
  | removed => exact hn.filter _

theorem relists_insert (f : Frame) (name : String) (value : Value) :
    Relists name f.names (f.insert name value).names := by
  cases h : f.binds name with
  | true =>
      rw [f.names_insert_of_binds h]
      exact .kept f.names
  | false =>
      rw [f.names_insert_of_not_binds h]
      refine .added fun hmem => ?_
      rw [f.binds_iff.mpr hmem] at h
      cases h

theorem relists_erase (f : Frame) (name : String) :
    Relists name f.names (f.erase name).names := by
  rw [f.names_erase]
  exact .removed f.names

theorem names_erase_sublist (f : Frame) (name : String) :
    (f.erase name).names.Sublist f.names := by
  rw [f.names_erase]
  exact List.filter_sublist

theorem nodup_names_foldl_insert {f : Frame} (h : f.names.Nodup) (bs : List (String × Value)) :
    (bs.foldl (fun f b => f.insert b.1 b.2) f).names.Nodup := by
  induction bs generalizing f with
  | nil => exact h
  | cons b bs ih => exact ih ((f.relists_insert b.1 b.2).nodup h)

theorem nodup_names_ofList (bs : List (String × Value)) : (ofList bs).names.Nodup :=
  nodup_names_foldl_insert (f := {}) List.nodup_nil bs

end Frame

namespace Store

variable {σ τ : Store} {i : Nat}

def Keyed (σ : Store) : Prop :=
  ∀ i, (σ.frame i).names.Nodup

theorem keyed_of_frames (h : ∀ f ∈ σ.frames.toList, f.names.Nodup) : σ.Keyed := by
  intro i
  by_cases hi : i < σ.frames.size
  · have hframe : σ.frame i = σ.frames[i] := by simp [frame, hi]
    rw [hframe]
    exact h _ (Array.getElem_mem_toList hi)
  · rw [frame_of_size_le (Nat.le_of_not_lt hi)]
    exact List.nodup_nil

inductive Change (σ : Store) : Store → Prop where
  | insert (i : Nat) (name : String) (value : Value) : Change σ (σ.update i (·.insert name value))
  | erase (i : Nat) (name : String) : Change σ (σ.update i (·.erase name))
  | enter (parent : Env) (bs : List (String × Value)) : Change σ (σ.enter parent (.ofList bs)).2
  | countDelay : Change σ σ.countDelay

theorem Keyed.update (h : σ.Keyed) {change : Frame → Frame}
    (hc : ∀ f : Frame, f.names.Nodup → (change f).names.Nodup) : (σ.update i change).Keyed := by
  intro j
  rcases σ.frame_update change (i := i) (j := j) with hj | ⟨-, hj⟩
  · exact hj ▸ h j
  · exact hj ▸ hc _ (h j)

theorem Keyed.change (h : σ.Keyed) (hc : σ.Change τ) : τ.Keyed := by
  cases hc with
  | insert i name value => exact h.update fun f => (f.relists_insert name value).nodup
  | erase i name => exact h.update fun f => (f.relists_erase name).nodup
  | enter parent bs =>
      intro j
      rw [frame_enter]
      split
      · exact Frame.nodup_names_ofList bs
      · exact h j
  | countDelay => exact h

theorem Keyed.changes (h : σ.Keyed) (hc : Relation.ReflTransGen Change σ τ) : τ.Keyed := by
  induction hc with
  | refl => exact h
  | tail _ hc ih => exact ih.change hc

theorem changes_unbind (env : Env) (name : String) (σ : Store) :
    Relation.ReflTransGen Change σ (σ.unbind env name) := by
  unfold unbind
  induction env.frames generalizing σ with
  | nil => exact .refl
  | cons i frames ih => exact .head (.erase i name) (ih (σ.update i (·.erase name)))

theorem changes_unbindLocally (env : Env) (name : String) (σ : Store) :
    Relation.ReflTransGen Change σ (σ.unbindLocally env name) := by
  cases env with
  | empty => exact .refl
  | scope link frame parent => exact .single (.erase frame name)

end Store

namespace Effect

open Relation

variable {α β : Type} {s : State} {x : Effect α}

def Changes (s : State) (x : Effect α) : Prop :=
  ReflTransGen Store.Change s.store (stateAfter (x s)).store

namespace Changes

theorem bind {f : α → Effect β} (hx : Changes s x) (hf : ∀ a t, x s = .ok a t → Changes t (f a)) :
    Changes s (x >>= f) := by
  unfold Changes at hx ⊢
  rw [bind_apply]
  cases h : x s with
  | ok a t =>
      rw [h] at hx
      exact hx.trans (hf a t h)
  | error e t =>
      rw [h] at hx
      exact hx

theorem explain (f : Stop → Stop) (hx : Changes s x) : Changes s (Effect.explain f x) := by
  unfold Changes Effect.explain at *
  generalize x s = r at hx
  cases r <;> exact hx

theorem attempt (hx : Changes s x) : Changes s (Effect.attempt x) := by
  unfold Changes Effect.attempt at *
  generalize x s = r at hx
  match r, hx with
  | .ok _ _, hx | .error (.failed _) _, hx | .error .diverged _, hx => exact hx

theorem inCall (env : Env) (hx : Changes { s with stack := s.stack.push env } x) :
    Changes s (Effect.inCall env x) := by
  unfold Changes Effect.inCall at *
  generalize x _ = r at hx
  cases r <;> exact hx

theorem extend (env : Env) (names : List String) (values : List Value) (s : State) :
    Changes s (Effect.extend env names values) := by
  unfold Changes Effect.extend
  split
  · exact .single (.enter env (names.zip values))
  · exact .refl

theorem primitive {D : Discipline} {n : Nat} {Q : α → Nat → Prop} (h : Primitive D n x Q)
    (s : State) : Changes s x := by
  cases h with
  | pure | fail | read | stack | print => exact .refl
  | freshDelay => exact .single .countDelay
  | resolve =>
      unfold Changes Effect.resolve
      split <;> exact .refl
  | @define env name v =>
      cases env with
      | empty => exact .refl
      | scope link frame parent => exact .single (.insert frame name v)
  | assign =>
      unfold Changes Effect.assign
      split
      · exact .single (.insert _ _ _)
      · exact .refl
  | unbind name => exact Store.changes_unbind _ name s.store
  | unbindLocally name => exact Store.changes_unbindLocally _ name s.store

end Changes

end Effect

open Effect Discipline

theorem Evaluator.changes_descend (ev : Evaluator) (depth : Nat) (s : State) :
    Changes s (ev.descend depth) := by
  unfold Changes descend
  split <;> exact .refl

theorem Form.changes_makeProcedure (ev : Evaluator) (specs body : List Value) (env : Env)
    (s : State) : Changes s (makeProcedure ev specs body env) := by
  unfold makeProcedure
  cases params ev.isForm specs <;> exact .refl

namespace Interpreter

variable {i : Interpreter} {fuel : Nat} {s : State}

def ChangesWithin (i : Interpreter) (fuel : Nat) : Prop :=
  ∀ e env depth s, Changes s (i.evalWithin fuel e env depth)

theorem ChangesWithin.sequence (h : i.ChangesWithin fuel) (es : List Value) (env : Env)
    (depth : Nat) (s : State) : Changes s ((i.evaluator fuel).sequence es env depth) := by
  induction es generalizing s with
  | nil => exact .refl
  | cons e es ih =>
      cases es with
      | nil => exact h e env depth s
      | cons e' es => exact (h e env depth s).bind fun _ t _ => ih t

theorem ChangesWithin.routine (h : i.ChangesWithin fuel) (hi : anything.Governs i) {α : Type}
    {n : Nat} {x : Evaluator → Nat → Effect α} {Q : α → Nat → Prop} (hx : Routine anything n x Q)
    (depth : Nat) (hn : s.store.frames.size = n) : Changes s (x (i.evaluator fuel) depth) := by
  induction hx generalizing depth s with
  | primitive hx => exact .primitive hx s
  | @bind α β n x f Q R hx hf ihx ihf =>
      subst hn
      refine (ihx depth rfl).bind fun a t hxs => ?_
      have hends : anything.Ends s Q (x (i.evaluator fuel) depth s) :=
        hi.ends_routine fuel hx (good_anything s)
      rw [hxs] at hends
      exact ihf a _ hends.1.size_le hends.2 depth rfl
  | explain expr _ ih => exact (ih depth hn).explain _
  | attempt _ ih => exact (ih depth hn).attempt
  | atDepth _ g _ ih => exact ih depth (g depth) hn
  | eval => exact h _ _ depth s
  | force =>
      exact (Evaluator.changes_descend _ depth s).bind fun k t _ => h _ _ k t
  | call =>
      refine (Evaluator.changes_descend _ depth s).bind fun k t _ => ?_
      exact (Changes.extend _ _ _ t).bind fun scope u _ => .inCall scope (h.sequence _ scope k _)
  | ifForm name _ _ ihx ihy =>
      cases hname : (i.evaluator fuel).isForm name with
      | true =>
          simp only [hname, if_true]
          exact ihx depth hn
      | false =>
          simp only [hname]
          exact ihy (fun _ => trivial) depth hn
  | withBuiltin index _ _ ihx ihy =>
      cases hindex : (i.evaluator fuel).builtin? index with
      | some b =>
          simp only [hindex]
          exact ihx b (replies_anything b) depth hn
      | none =>
          simp only [hindex]
          exact ihy depth hn
  | makeProcedure => exact Form.changes_makeProcedure _ _ _ _ s

theorem OnlyEvaluates.changesWithin (h : i.OnlyEvaluates) (fuel : Nat) : i.ChangesWithin fuel := by
  induction fuel with
  | zero => exact fun _ _ _ _ => .refl
  | succ fuel ih =>
      intro e env depth s
      have hcode : anything.Allows .code s.store.frames.size e := trivial
      have henv : anything.Scope s.store.frames.size env := trivial
      have hroutine := Routine.step h.governs.laws h.governs.hosts hcode henv
      exact ih.routine h.governs hroutine depth rfl

theorem OnlyEvaluates.keyed (h : i.OnlyEvaluates) (hs : s.store.Keyed) (fuel : Nat) (e : Value)
    (env : Env) (depth : Nat) : (stateAfter (i.evalWithin fuel e env depth s)).store.Keyed :=
  hs.changes (h.changesWithin fuel e env depth s)

theorem onlyEvaluates_limited (m : Nat) : (limited m).OnlyEvaluates :=
  fun _ h => .inl h

theorem keyed_of_reached {m : Nat} (h : (limited m).Reached s) : s.store.Keyed := by
  induction h with
  | initial =>
      refine Store.keyed_of_frames fun f hf => ?_
      rw [List.mem_singleton.mp hf]
      exact Frame.nodup_names_ofList _
  | evaluate fuel _ _ ih => exact (onlyEvaluates_limited m).keyed ih fuel _ .globals 0

end Interpreter

end PassingLisp
