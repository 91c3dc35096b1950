import PassingLisp.CommandLine.Session
import PassingLisp.Proofs.Discipline

namespace PassingLisp

theorem Builtin.call_of_accepts {arity : Arity} {run : List Value → Reply} {args : List Value}
    (h : arity.accepts args.length = true) : (Builtin.mk arity run).call args = run args := by
  simp only [call, Arity.check, h, if_true]

namespace Interpreter

def Stocked (i : Interpreter) : Prop :=
  ∀ (index : Nat) (entry : String × Builtin), Builtin.core[index]? = some entry →
    i.builtins[index]? = some entry.2

def Answers (i : Interpreter) (name : String) (args : List Value) (r : Except Error Value) : Prop :=
  ∃ f, State.initial.store.get? .globals name = some f ∧
    ∀ fuel depth s, (i.evaluator fuel).apply f args depth s = Effect.ofExcept r s

variable {i : Interpreter} {name : String} {index : Nat} {b : Builtin} {args : List Value}
  {r : Except Error Value} {v : Value}

theorem stocked_core (maxDepth : Nat) : Stocked { maxDepth := maxDepth } := by
  intro index entry h
  simp only [List.getElem?_toArray, List.getElem?_map, h, Option.map_some]

theorem Stocked.register (h : i.Stocked) {σ τ : Store} {i' : Interpreter}
    (hr : i.register name b σ = .ok (i', τ)) : i'.Stocked := by
  intro index entry hentry
  have hold := h index entry hentry
  have hlt := (Array.getElem?_eq_some_iff.mp hold).1
  unfold Interpreter.register at hr
  split at hr
  · cases hr
  · split at hr
    · cases hr
      simpa [Array.getElem?_push, Nat.ne_of_lt hlt] using hold
    · cases hr

theorem stocked_session (o : Options) : (CommandLine.session o).interpreter.Stocked := by
  unfold CommandLine.session
  dsimp only
  split
  · rename_i h
    exact (stocked_core o.maxDepth).register h
  · exact stocked_core o.maxDepth

theorem callBuiltin_eq (ev : Evaluator) (hb : b.call args = .ofExcept r)
    (hr : ∀ v, r = .ok v → v.Plain) (depth : Nat) (s : State) :
    ev.callBuiltin b args depth s = Effect.ofExcept r s := by
  have hprint : Effect.print "" s = .ok () s := by simp [Effect.print]
  rw [Evaluator.callBuiltin, hb, Effect.bind_apply, Reply.ofExcept, hprint]
  cases r with
  | error e => rfl
  | ok v =>
      cases v with
      | delayed id expr env => exact (hr _ rfl).elim
      | _ => rfl

section

variable (h : i.Stocked)
  (hname : State.initial.store.get? .globals name = some (.builtin name index))
  (hb : Builtin.core[index]? = some (name, b))

include h hname hb

theorem Stocked.answers (hcall : b.call args = .ofExcept r) (hr : ∀ v, r = .ok v → v.Plain) :
    i.Answers name args r := by
  refine ⟨_, hname, fun fuel depth s => ?_⟩
  have hb' : (i.evaluator fuel).builtin? index = some b := h index _ hb
  simp only [Evaluator.apply, hb']
  exact callBuiltin_eq _ hcall hr depth s

theorem Stocked.answers_ok (hcall : b.call args = .ofExcept (.ok v)) (hv : v.Plain) :
    i.Answers name args (.ok v) := by
  refine h.answers hname hb hcall fun u hu => ?_
  cases hu
  exact hv

theorem Stocked.answers_error {e : Error} (hcall : b.call args = .ofExcept (.error e)) :
    i.Answers name args (.error e) :=
  h.answers hname hb hcall fun _ h => nomatch h

end

end Interpreter

end PassingLisp
