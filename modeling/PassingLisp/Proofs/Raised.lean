import PassingLisp.Proofs.Reachable

namespace PassingLisp

def Mismatch.words : Mismatch → String
  | .tooFew => "too few"
  | .tooMany => "too many"

def Mismatch.Holds (expected got : Nat) : Mismatch → Prop
  | .tooFew => got < expected
  | .tooMany => expected < got

namespace Error

variable {expected got : Nat} {expression : Option String} {side side' : Mismatch}

def Says (e : Error) (side : Mismatch) : Prop :=
  ∃ rest, e.message = "ArityError: " ++ side.words ++ " arguments" ++ rest

theorem mismatch_eq_some_iff :
    (arity expected got expression).mismatch = some side ↔ side.Holds expected got := by
  simp only [mismatch]
  split
  · cases side <;> simp [Mismatch.Holds] <;> omega
  · split <;> cases side <;> simp [Mismatch.Holds] <;> omega

theorem Says.unique {e : Error} (h : e.Says side) (h' : e.Says side') : side = side' := by
  obtain ⟨rest, h⟩ := h
  obtain ⟨rest', h'⟩ := h'
  rw [h] at h'
  cases side <;> cases side' <;> simp [Mismatch.words, ← String.toList_inj] at h' ⊢

theorem words_of_holds (h : side.Holds expected got) :
    (if expected < got then "too many arguments" else "too few arguments") =
      side.words ++ " arguments" := by
  cases side with
  | tooFew =>
      have hle : ¬ expected < got := Nat.lt_asymm h
      simp [Mismatch.words, hle]
  | tooMany =>
      have hlt : expected < got := h
      simp [Mismatch.words, hlt]

theorem says_of_holds (h : side.Holds expected got) :
    (arity expected got expression).Says side := by
  refine ⟨(expression.elim "" fun e => " in " ++ e) ++ ": expected " ++ toString expected
    ++ ", got " ++ toString got, ?_⟩
  unfold message
  simp only [words_of_holds h, String.append_assoc]

structure Sided (expected got : Nat) (expression : Option String) : Prop where
  ne : expected ≠ got
  side : ∃ side, (arity expected got expression).mismatch = some side
  holds_iff (side : Mismatch) :
    (arity expected got expression).mismatch = some side ↔ side.Holds expected got
  says_iff (side : Mismatch) :
    (arity expected got expression).Says side ↔
      (arity expected got expression).mismatch = some side

theorem sided_of_ne (h : expected ≠ got) : Sided expected got expression := by
  have hside : ∃ side, Mismatch.Holds expected got side := by
    rcases Nat.lt_or_gt_of_ne h with hlt | hgt
    · exact ⟨.tooMany, hlt⟩
    · exact ⟨.tooFew, hgt⟩
  obtain ⟨side, hside⟩ := hside
  refine ⟨h, ⟨side, mismatch_eq_some_iff.mpr hside⟩, fun _ => mismatch_eq_some_iff, fun other => ?_⟩
  rw [mismatch_eq_some_iff]
  constructor
  · intro hsays
    exact hsays.unique (says_of_holds hside) ▸ hside
  · exact says_of_holds

end Error

namespace Discipline

def raisable : Discipline :=
  { anything with Raises := Error.Raisable }

theorem laws_raisable : raisable.Laws :=
  { laws_anything with
    raises := id
    raises_locate := Error.raisable_locate }

theorem good_raisable (s : State) : raisable.Good s :=
  ⟨trivial, trivial, fun _ _ _ _ => ⟨trivial, trivial⟩⟩

end Discipline

open Discipline

namespace Effect

def FailsSided {α : Type} (r : Result α) : Prop :=
  ∀ expected got expression t, r = .error (.failed (.arity expected got expression)) t →
    Error.Sided expected got expression

theorem failsSided_of_ends {α : Type} {s : State} {Q : α → Nat → Prop} {r : Result α}
    (h : raisable.Ends s Q r) : FailsSided r := by
  rintro expected got expression t rfl
  have hne : (Error.arity expected got expression).Raisable := h.2
  exact Error.sided_of_ne hne

end Effect

namespace Interpreter

variable {m : Nat}

theorem governs_raisable : raisable.Governs (limited m) where
  laws := laws_raisable
  text_code _ := trivial
  hosts := Routine.hosts_core laws_raisable fun _ _ => trivial
  binds _ _ := trivial
  replies := replies_of_core laws_raisable

structure FailsOnASide (i : Interpreter) : Prop where
  eval (fuel : Nat) (e : Value) (env : Env) (depth : Nat) (s : State) :
    Effect.FailsSided (i.evalWithin fuel e env depth s)
  sequence (fuel : Nat) (es : List Value) (env : Env) (depth : Nat) (s : State) :
    Effect.FailsSided ((i.evaluator fuel).sequence es env depth s)
  apply (fuel : Nat) (f : Value) (args : List Value) (depth : Nat) (s : State) :
    Effect.FailsSided ((i.evaluator fuel).apply f args depth s)
  procedure (fuel : Nat) {params : List Param} {args : List Value} (body : List Value) (env : Env)
    {depth : Nat} (s : State) : depth < i.maxDepth → params.length ≠ args.length →
      (i.evaluator fuel).apply (.procedure params body env) args depth s =
        .error (.failed (.arity params.length args.length)) s
  builtin (fuel : Nat) {name : String} {index : Nat} {b : Builtin} {args : List Value}
    (depth : Nat) (s : State) : i.builtins[index]? = some b → b.arity.accepts args.length = false →
      (i.evaluator fuel).apply (.builtin name index) args depth s =
        .error (.failed (.arity b.arity.bound args.length)) s

theorem failsOnASide (m : Nat) : (limited m).FailsOnASide where
  eval fuel e env depth s :=
    Effect.failsSided_of_ends (governs_raisable.ends fuel (good_raisable s) trivial trivial)
  sequence fuel es env depth s := by
    have hes (e : Value) (_ : e ∈ es) : raisable.Allows .code s.store.frames.size e := trivial
    have henv : raisable.Scope s.store.frames.size env := trivial
    have hroutine := Routine.sequence laws_raisable hes henv
    exact Effect.failsSided_of_ends (governs_raisable.ends_routine fuel hroutine (good_raisable s))
  apply fuel f args depth s := by
    have hargs (a : Value) (_ : a ∈ args) : raisable.Allows .result s.store.frames.size a := trivial
    have hf : raisable.Allows .result s.store.frames.size f := trivial
    have hroutine := Routine.apply laws_raisable hf (Straight.fit_results laws_raisable f hargs)
    exact Effect.failsSided_of_ends (governs_raisable.ends_routine fuel hroutine (good_raisable s))
  procedure fuel params args body env depth s hd hlen := by
    have hdescend := ((limited m).evaluator fuel).descend_of_lt hd
    simp only [Evaluator.apply, Evaluator.callProcedure, hdescend, if_false, Effect.bind_apply,
      Effect.pure_apply, Effect.extend, List.length_map, hlen]
  builtin fuel name index b args depth s hb hrefuses := by
    have hb' : ((limited m).evaluator fuel).builtin? index = some b := hb
    have hcall : b.call args = .error (.arity b.arity.bound args.length) := by
      simp only [Builtin.call, Arity.check, hrefuses, Bool.false_eq_true, if_false]
    simp only [Evaluator.apply, hb', Evaluator.callBuiltin, hcall, Effect.bind_apply]
    simp [Effect.print, Reply.error, Effect.ofExcept]

end Interpreter

end PassingLisp
