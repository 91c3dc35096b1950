import PassingLisp.Proofs.Depths
import PassingLisp.Proofs.Ending

namespace PassingLisp

open Discipline

namespace Effect

variable {α β : Type} {s : State}

inductive Sooner {α : Type} : Result α → Result α → Prop where
  | same (r : Result α) : Sooner r r
  | unfinished (s : State) (r : Result α) : Sooner (.error .diverged s) r

def Settles (x : Nat → Effect α) (s : State) (r : Result α) : Prop :=
  Finished r ∧ ∃ limit, ∀ fuel, limit ≤ fuel → x fuel s = r

namespace Sooner

variable {r r' r'' : Result α} {x y : Effect α}

theorem eq_of_finished (h : Sooner r r') (hr : Finished r) : r' = r := by
  cases h with
  | same => rfl
  | unfinished => exact hr.elim

theorem trans (h : Sooner r r') (h' : Sooner r' r'') : Sooner r r'' := by
  cases h with
  | same => exact h'
  | unfinished t => exact .unfinished t r''

theorem bind {f g : α → Effect β} (h : Sooner (x s) (y s))
    (hf : ∀ a t, x s = .ok a t → Sooner (f a t) (g a t)) :
    Sooner ((x >>= f) s) ((y >>= g) s) := by
  simp only [bind_apply]
  generalize x s = r at h hf
  generalize y s = r' at h
  cases h with
  | same =>
      cases r with
      | ok a t => exact hf a t rfl
      | error e t => exact .same _
  | unfinished t => exact .unfinished t _

theorem explain {f : Stop → Stop} (hf : f .diverged = .diverged) (h : Sooner (x s) (y s)) :
    Sooner (Effect.explain f x s) (Effect.explain f y s) := by
  unfold Effect.explain
  generalize x s = r at h
  generalize y s = r' at h
  cases h with
  | same => exact .same _
  | unfinished t =>
      simp only [hf]
      exact .unfinished t _

theorem attempt (h : Sooner (x s) (y s)) : Sooner (Effect.attempt x s) (Effect.attempt y s) := by
  unfold Effect.attempt
  generalize x s = r at h
  generalize y s = r' at h
  cases h with
  | same => exact .same _
  | unfinished t => exact .unfinished t _

theorem inCall (env : Env) (h : ∀ t, Sooner (x t) (y t)) :
    Sooner (Effect.inCall env x s) (Effect.inCall env y s) := by
  have h := h { s with stack := s.stack.push env }
  unfold Effect.inCall
  generalize x _ = r at h
  generalize y _ = r' at h
  cases h with
  | same => exact .same _
  | unfinished t => exact .unfinished _ _

end Sooner

theorem Settles.of_sooner {x y : Nat → Effect α} {r : Result α} (k : Nat)
    (hxy : ∀ fuel, Sooner (x fuel s) (y (fuel + k) s))
    (hy : ∀ fuel fuel', fuel ≤ fuel' → Sooner (y fuel s) (y fuel' s)) (h : Settles x s r) :
    Settles y s r := by
  obtain ⟨hr, limit, hx⟩ := h
  have hlimit := hx limit (Nat.le_refl limit)
  have hstart : y (limit + k) s = r := ((hxy limit).eq_of_finished (hlimit ▸ hr)).trans hlimit
  refine ⟨hr, limit + k, fun fuel hfuel => ?_⟩
  exact ((hy _ _ hfuel).eq_of_finished (hstart ▸ hr)).trans hstart

theorem settles_congr {x y : Nat → Effect α} {t : State} {r : Result α} (limit : Nat)
    (h : ∀ fuel, limit ≤ fuel → x fuel s = y fuel t) :
    Settles x s r ↔ Settles y t r := by
  refine and_congr_right fun _ => ⟨fun ⟨k, hx⟩ => ⟨max limit k, fun fuel hfuel => ?_⟩,
    fun ⟨k, hy⟩ => ⟨max limit k, fun fuel hfuel => ?_⟩⟩
  · rw [← h fuel (by omega), hx fuel (by omega)]
  · rw [h fuel (by omega), hy fuel (by omega)]

theorem settles_bind_iff {x : Nat → Effect α} {f : Nat → α → Effect β} {a : α} {t : State}
    {r : Result β} (h : Settles x s (.ok a t)) :
    Settles (fun fuel => x fuel >>= f fuel) s r ↔ Settles (fun fuel => f fuel a) t r := by
  obtain ⟨-, limit, hx⟩ := h
  refine settles_congr limit fun fuel hfuel => ?_
  rw [bind_apply, hx fuel hfuel]

end Effect

open Effect

namespace Interpreter

variable {i : Interpreter} {fuel fuel' : Nat}

def Outlasts (i : Interpreter) (fuel' fuel : Nat) : Prop :=
  ∀ e env depth s, Sooner (i.evalWithin fuel e env depth s) (i.evalWithin fuel' e env depth s)

theorem Outlasts.sequence (h : i.Outlasts fuel' fuel) (es : List Value) (env : Env) (depth : Nat)
    (s : State) :
    Sooner ((i.evaluator fuel).sequence es env depth s)
      ((i.evaluator fuel').sequence es env depth s) := by
  induction es generalizing s with
  | nil => exact .same _
  | cons e es ih =>
      cases es with
      | nil => exact h e env depth s
      | cons e' es => exact (h e env depth s).bind fun _ t _ => ih t

theorem Outlasts.routine (h : i.Outlasts fuel' fuel) (hi : anything.Governs i) {α : Type} {n : Nat}
    {x : Evaluator → Nat → Effect α} {Q : α → Nat → Prop} (hx : Routine anything n x Q)
    (depth : Nat) {s : State} (hn : s.store.frames.size = n) :
    Sooner (x (i.evaluator fuel) depth s) (x (i.evaluator fuel') depth s) := by
  induction hx generalizing depth s with
  | primitive => exact .same _
  | @bind α β n x f Q R hx hf ihx ihf =>
      subst hn
      refine (ihx depth rfl).bind fun a t hxs => ?_
      have hends : anything.Ends s Q (x (i.evaluator fuel) depth s) :=
        hi.ends_routine fuel hx (good_anything s)
      rw [hxs] at hends
      exact ihf a _ hends.1.size_le hends.2 depth rfl
  | explain expr _ ih => exact (ih depth hn).explain rfl
  | attempt _ ih => exact (ih depth hn).attempt
  | atDepth _ g _ ih => exact ih depth (g depth) hn
  | eval => exact h _ _ depth s
  | force => exact Sooner.bind (.same _) fun k t _ => h _ _ k t
  | call =>
      refine Sooner.bind (.same _) fun k t _ => Sooner.bind (.same _) fun scope u _ => ?_
      exact Sooner.inCall scope fun v => h.sequence _ scope k v
  | ifForm name _ _ ihx ihy =>
      cases hname : i.forms.contains name with
      | true =>
          have hform (fuel : Nat) : (i.evaluator fuel).isForm name = true := hname
          simp only [hform, if_true]
          exact ihx depth hn
      | false =>
          have hform (fuel : Nat) : (i.evaluator fuel).isForm name = false := hname
          simp only [hform]
          exact ihy (fun _ => trivial) depth hn
  | withBuiltin index _ _ ihx ihy =>
      cases hindex : i.builtins[index]? with
      | some b =>
          have hbuiltin (fuel : Nat) : (i.evaluator fuel).builtin? index = some b := hindex
          simp only [hbuiltin]
          exact ihx b (replies_anything b) depth hn
      | none =>
          have hbuiltin (fuel : Nat) : (i.evaluator fuel).builtin? index = none := hindex
          simp only [hbuiltin]
          exact ihy depth hn
  | makeProcedure => exact .same _

theorem OnlyEvaluates.outlasts (h : i.OnlyEvaluates) (hfuel : fuel ≤ fuel') :
    i.Outlasts fuel' fuel := by
  induction fuel generalizing fuel' with
  | zero => exact fun _ _ _ s => .unfinished s _
  | succ fuel ih =>
      intro e env depth s
      obtain ⟨fuel', rfl⟩ := Nat.exists_eq_add_of_lt hfuel
      have hcode : anything.Allows .code s.store.frames.size e := trivial
      have henv : anything.Scope s.store.frames.size env := trivial
      have hroutine := Routine.step h.governs.laws h.governs.hosts hcode henv
      exact (ih (Nat.le_add_right fuel fuel')).routine h.governs hroutine depth rfl

end Interpreter

end PassingLisp
