import PassingLisp.Proofs.Ending

namespace PassingLisp

open Discipline

namespace Interpreter

variable {m depth : Nat} {s : State} {env : Env} {e : Value}

def Terminates (m depth : Nat) (e : Value) : Prop :=
  ∀ env s, reading.Good s → env.Below s.store.frames.size →
    reading.Comes s (fun v n => reading.Allows .result n v)
      fun fuel => (limited m).evalWithin fuel e env depth

def Thorough (m depth : Nat) (e : Value) : Prop :=
  e.Readable ∧ ∀ u : Value, u.Within e → Terminates m depth u

theorem Thorough.terminates (h : Thorough m depth e) : Terminates m depth e :=
  h.2 e .here

theorem thorough_of_mem {es : List Value} (h : Thorough m depth (.list es)) :
    ∀ e ∈ es, Thorough m depth e :=
  fun e he => ⟨Value.readable_list_iff.mp h.1 e he, fun u hu => h.2 u (.element he hu)⟩

theorem thorough_list {es : List Value} (hes : ∀ e ∈ es, Thorough m depth e)
    (ht : Terminates m depth (.list es)) : Thorough m depth (.list es) := by
  refine ⟨.list fun e he => (hes e he).1, fun u hu => ?_⟩
  cases hu with
  | here => exact ht
  | element he hu => exact (hes _ he).2 u hu

theorem laws_thorough : (layers (Thorough m depth)).Laws :=
  laws_layers And.left thorough_of_mem

theorem comes_descend (hg : reading.Good s) :
    reading.Comes s (fun k n => (k = depth + 1 ∧ depth < m) ∧ n = s.store.frames.size)
      fun fuel => ((limited m).evaluator fuel).descend depth := by
  have hdescend (fuel : Nat) : ((limited m).evaluator fuel).descend depth =
      ((limited m).evaluator 0).descend depth := rfl
  simp only [hdescend]
  have hmax : ((limited m).evaluator 0).maxDepth = m := rfl
  unfold Evaluator.descend
  by_cases hd : m ≤ depth
  · rw [if_pos (hmax ▸ hd)]
    exact .const trivial ⟨.refl hg, trivial⟩
  · rw [if_neg (hmax ▸ hd)]
    exact .const trivial ⟨.refl hg, ⟨rfl, Nat.lt_of_not_le hd⟩, rfl⟩

theorem comes_force (ht : depth < m → Terminates m (depth + 1) e) (hg : reading.Good s)
    (he : env.Below s.store.frames.size) :
    reading.Comes s (fun v n => reading.Allows .result n v)
      fun fuel => ((limited m).evaluator fuel).force e env depth := by
  refine (comes_descend hg).bind fun k t hafter hk => ?_
  obtain ⟨⟨rfl, hd⟩, hsize⟩ := hk
  exact ht hd _ _ hafter.good (hsize ▸ he)

theorem comes_sequence {es : List Value} (ht : ∀ e ∈ es, Terminates m depth e)
    (hg : reading.Good s) (he : env.Below s.store.frames.size) :
    reading.Comes s (fun v n => reading.Allows .result n v)
      fun fuel => ((limited m).evaluator fuel).sequence es env depth := by
  induction es generalizing s with
  | nil => exact .const trivial ⟨.refl hg, laws_readable.plain trivial⟩
  | cons e es ih =>
      cases es with
      | nil => exact ht e (by simp) _ _ hg he
      | cons e' es =>
          refine (ht e (by simp) _ _ hg he).bind fun v t hafter _ => ?_
          exact ih (fun e'' h => ht e'' (by simp [h])) hafter.good (he.mono hafter.size_le)

theorem comes_call {params : List Param} {body : List Value} {args : List Value}
    (ht : depth < m → ∀ e ∈ body, Terminates m (depth + 1) e) (hg : reading.Good s)
    (hf : reading.Allows .result s.store.frames.size (.procedure params body env))
    (ha : ∀ a ∈ args, reading.Allows .argument s.store.frames.size a) :
    reading.Comes s (fun v n => reading.Allows .result n v)
      fun fuel => ((limited m).evaluator fuel).callProcedure params body env args depth := by
  by_cases h : depth < m ∧ params.length = args.length
  · obtain ⟨hd, hlen⟩ := h
    have hscope := laws_readable.scope_call (laws_readable.procedure_scope hf)
    rw [← s.size_called env ((params.map Param.name).zip args)] at hscope
    obtain ⟨limit, r, hfin, hends, hr⟩ := comes_sequence (ht hd) (hg.called laws_readable hf ha)
      hscope
    refine ⟨limit, Effect.leave s.stack r, Effect.finished_leave s.stack hfin,
      hends.leave laws_readable hg, fun fuel hfuel => ?_⟩
    have hbody : ((limited m).evaluator fuel).runBody params body env args depth s = r :=
      hr fuel hfuel
    have hleave := ((limited m).evaluator fuel).callProcedure_eq_leave hd hlen
      (hbody ▸ hends.after.stack_eq)
    exact hleave.trans (congrArg _ hbody)
  · obtain ⟨e, he, hfail⟩ := ((limited m).evaluator 0).callProcedure_eq_error body env s h
    exact ⟨0, .error (.failed e) s, trivial, ⟨.refl hg, he⟩,
      fun fuel _ => hfail ((limited m).evalWithin fuel)⟩

theorem comes_routine (hdeeper : depth < m → ∀ {e : Value}, e.Readable → Terminates m (depth + 1) e)
    {α : Type} {n : Nat} {x : Evaluator → Nat → Effect α} {Q : α → Nat → Prop}
    (hx : Routine (layers (Thorough m depth)) n x Q) (hn : s.store.frames.size = n)
    (hg : reading.Good s) :
    reading.Comes s Q fun fuel => x ((limited m).evaluator fuel) depth := by
  induction hx generalizing s with
  | primitive h =>
      exact .const (h.finished hg.backward) (h.ends laws_thorough hn hg.recode).recode
  | bind hx hf ihx ihf =>
      subst hn
      refine (ihx rfl hg).bind fun a t ht ha => ?_
      exact ihf a _ ht.size_le ha rfl ht.good
  | explain expr h ih => exact (ih hn hg).explain laws_readable expr
  | attempt h ih => exact (ih hn hg).attempt
  | atDepth hany => exact hany.elim
  | eval hc he =>
      subst hn
      exact hc.terminates _ _ hg he
  | force ht he =>
      subst hn
      exact comes_force (fun hlt => hdeeper hlt ht) hg he
  | call hf ha =>
      subst hn
      have hbody := laws_readable.procedure_text hf
      exact comes_call (fun hlt e he => hdeeper hlt (hbody e he)) hg hf ha
  | ifForm name hx hy ihx ihy =>
      cases hf : (limited m).forms.contains name with
      | true =>
          have hform (fuel : Nat) : ((limited m).evaluator fuel).isForm name = true := hf
          simp only [hform, if_true]
          exact ihx hn hg
      | false =>
          have hform (fuel : Nat) : ((limited m).evaluator fuel).isForm name = false := hf
          simp only [hform]
          exact ihy (fun _ => trivial) hn hg
  | withBuiltin index hx hy ihx ihy =>
      cases hb : (limited m).builtins[index]? with
      | some b =>
          have hbuiltin (fuel : Nat) : ((limited m).evaluator fuel).builtin? index = some b := hb
          simp only [hbuiltin]
          exact ihx b (replies_of_core laws_thorough hb) hn hg
      | none =>
          have hbuiltin (fuel : Nat) : ((limited m).evaluator fuel).builtin? index = none := hb
          simp only [hbuiltin]
          exact ihy hn hg
  | @makeProcedure n specs body env hs hb he =>
      subst hn
      have hadmits : (layers (Thorough m depth)).Admits ((limited m).evaluator 0) :=
        ⟨fun _ _ => trivial, replies_of_core laws_thorough⟩
      have hends := ends_makeProcedure laws_thorough hadmits hg.recode hs hb he
      exact .const (Form.finished_makeProcedure _ specs body env s) hends.recode

section

variable (hdeeper : depth < m → ∀ {e : Value}, e.Readable → Terminates m (depth + 1) e)

include hdeeper

theorem terminates_of_routine (h : ∀ {n env}, env.Below n →
      Routine (layers (Thorough m depth)) n
        (fun ev depth => Evaluator.step FormTable.core ev e env depth)
        fun v k => reading.Allows .result k v) : Terminates m depth e := by
  intro env s hg he
  exact (comes_routine hdeeper (h he) rfl hg).succ fun fuel => rfl

theorem thorough_atom (hr : e.Readable) (hl : ∀ es, e ≠ .list es) : Thorough m depth e := by
  refine ⟨hr, fun u hu => ?_⟩
  have hue : u = e := by
    cases hr with
    | list _ => exact absurd rfl (hl _)
    | _ =>
        cases hu
        rfl
  subst hue
  refine terminates_of_routine hdeeper fun he => ?_
  cases hr with
  | symbol name => exact Routine.evalSymbol laws_thorough name he
  | list _ => exact absurd rfl (hl _)
  | _ => exact .pure _ (laws_readable.plain trivial)

theorem thorough_form {head : String} {handler : Handler}
    (hf : FormTable.core.find? head = some handler)
    (hh : (layers (Thorough m depth)).Hosts handler) {operands : List Value}
    (ho : ∀ e ∈ operands, Thorough m depth e) :
    Thorough m depth (.list (.symbol head :: operands)) := by
  have hhead : Thorough m depth (.symbol head) :=
    thorough_atom hdeeper (.symbol head) fun _ h => nomatch h
  refine thorough_list (List.forall_mem_cons.mpr ⟨hhead, ho⟩) ?_
  exact terminates_of_routine hdeeper fun he => .explain _ (.evalForm hf hh ho he)

theorem expands_thorough : (layers (Thorough m depth)).Expands := by
  intro n clauses e hc h
  refine Form.condToIf_induction ?_ ?_ ?_ (fun es hes => thorough_of_mem (hc _ hes)) h
  · exact thorough_atom hdeeper (.bool false) fun _ h => nomatch h
  · intro body hbody
    unfold Form.sequenceToExpr
    split
    · exact hbody _ (by simp)
    · exact thorough_form hdeeper rfl (Routine.hosts_begin laws_thorough) hbody
  · intro test body alternative ht hb ha
    refine thorough_form hdeeper rfl (Routine.hosts_choice laws_thorough) fun e he => ?_
    simp only [List.mem_cons, List.not_mem_nil, or_false] at he
    rcases he with rfl | rfl | rfl
    · exact ht
    · exact hb
    · exact ha

theorem thorough_of_readable (he : e.Readable) : Thorough m depth e := by
  induction he with
  | list _ ih =>
      have hosts := Routine.hosts_core laws_thorough (expands_thorough hdeeper)
      refine thorough_list ih (terminates_of_routine hdeeper fun henv => ?_)
      exact .explain _ (.evalList laws_thorough hosts ih henv)
  | number n => exact thorough_atom hdeeper (.number n) fun _ h => nomatch h
  | symbol name => exact thorough_atom hdeeper (.symbol name) fun _ h => nomatch h
  | string text => exact thorough_atom hdeeper (.string text) fun _ h => nomatch h
  | bool b => exact thorough_atom hdeeper (.bool b) fun _ h => nomatch h

end

theorem terminates_of_readable {left : Nat} (hleft : m ≤ depth + left) (he : e.Readable) :
    Terminates m depth e := by
  induction left generalizing depth e with
  | zero => exact (thorough_of_readable (fun hlt => absurd hlt (by omega)) he).terminates
  | succ left ih =>
      exact (thorough_of_readable (fun _ _ he => ih (by omega) he) he).terminates

theorem evaluation_ends (h : (limited m).Reached s) (he : e.Readable)
    (henv : env.Below s.store.frames.size) (depth : Nat) :
    ∃ limit r, Effect.Finished r ∧
      ∀ fuel, limit ≤ fuel → (limited m).evalWithin fuel e env depth s = r := by
  have hterm : Terminates m depth e := terminates_of_readable (Nat.le_add_left m depth) he
  obtain ⟨limit, r, hfin, _, hr⟩ := hterm _ _ h.good henv
  exact ⟨limit, r, hfin, hr⟩

def looping : Value :=
  .list [.symbol "define", .list [.symbol "loop"], .list [.symbol "loop"]]

def loopDefined : State :=
  stateAfter ((limited 8).evalWithin ample looping .globals 0 .initial)

theorem evaluation_ends_loop :
    (limited 8).Reached loopDefined ∧ (Value.list [.symbol "loop"]).Readable ∧
      Env.globals.Below loopDefined.store.frames.size ∧
      ∃ limit r, Effect.Finished r ∧ ∀ fuel, limit ≤ fuel →
        (limited 8).evalWithin fuel (.list [.symbol "loop"]) .globals 0 loopDefined = r := by
  have hlooping : looping.Readable := by
    simp [looping, Value.readable_list_iff, Value.Readable.symbol]
  have hreached : (limited 8).Reached loopDefined := .evaluate ample .initial hlooping
  have hcall : (Value.list [.symbol "loop"]).Readable := by
    simp [Value.readable_list_iff, Value.Readable.symbol]
  have hglobals := below_globals hreached.good
  exact ⟨hreached, hcall, hglobals, evaluation_ends hreached hcall hglobals 0⟩

end Interpreter

end PassingLisp
