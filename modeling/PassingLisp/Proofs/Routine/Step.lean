import PassingLisp.Eval.Step
import PassingLisp.Proofs.Routine.Forms

namespace PassingLisp

namespace FormTable

theorem mem_of_find? {t : FormTable} {name : String} {handler : Handler}
    (h : t.find? name = some handler) : (name, handler) ∈ t.entries := by
  obtain ⟨entries⟩ := t
  simp only [find?] at h ⊢
  induction entries with
  | nil => simp at h
  | cons entry entries ih =>
      rw [List.lookup_cons] at h
      cases hn : name == entry.1 with
      | true =>
          have heq : name = entry.1 := by simpa using hn
          simp only [hn, Option.some.injEq] at h
          simp [heq, ← h]
      | false =>
          simp only [hn] at h
          exact List.mem_cons_of_mem _ (ih h)

theorem exists_mem_of_invoked? {t : FormTable} {σ : Store} {env : Env} {head : String}
    {handler : Handler} (h : t.invoked? σ env head = some handler) :
    ∃ entry ∈ t.entries, entry.2 = handler := by
  unfold invoked? at h
  split at h
  · rename_i found hf
    cases h
    exact ⟨_, mem_of_find? hf, rfl⟩
  · split at h
    · exact ⟨_, mem_of_find? h, rfl⟩
    · cases h

end FormTable

namespace Discipline

def HostsAll (D : Discipline) (forms : FormTable) : Prop :=
  ∀ entry ∈ forms.entries, D.Hosts entry.2

theorem HostsAll.straight {D : Discipline} {forms : FormTable} (h : D.HostsAll forms) :
    ∀ entry ∈ forms.entries, D.HostsStraight D.Hosts entry.2 := by
  intro entry hmem n operands env hc he
  have hosts : D.Hosts entry.2 := h entry hmem
  exact .invoke @hosts hc he

end Discipline

namespace Straight

variable {D : Discipline} {Hosted : Handler → Prop} {forms : FormTable} {n : Nat} {env : Env}

theorem evalForm {head : String} {handler : Handler} (hf : forms.find? head = some handler)
    (hH : D.HostsStraight Hosted handler) {operands : List Value}
    (hc : ∀ e ∈ operands, D.Allows .code n e) (he : D.Scope n env) :
    Straight D Hosted n
      (fun ev depth => Evaluator.evalList forms ev (.symbol head :: operands) env depth)
      fun v m => D.Allows .result m v := by
  have hinvoked (σ : Store) : forms.invoked? σ env head = some handler := by
    simp only [FormTable.invoked?, hf]
  refine .bind (Q := fun r m => m = n ∧ r = some handler)
    (read _ fun σ => ⟨rfl, hinvoked σ⟩) ?_
  rintro _ m - ⟨rfl, rfl⟩
  exact hH hc he

theorem evalList (hL : D.Laws) (hA : D.AmongCalls Hosted)
    (hF : ∀ entry ∈ forms.entries, D.HostsStraight Hosted entry.2) {es : List Value}
    (hc : ∀ e ∈ es, D.Allows .code n e) (he : D.Scope n env) :
    Straight D Hosted n (fun ev depth => Evaluator.evalList forms ev es env depth)
      fun v m => D.Allows .result m v := by
  rcases es with _ | ⟨operator, operands⟩
  · exact fail hL trivial
  have ho : D.Allows .code n operator := hc operator (by simp)
  have hc' (e : Value) (h : e ∈ operands) := hc e (List.mem_cons_of_mem _ h)
  cases operator with
  | symbol head =>
      refine .bind (Q := fun r m => m = n ∧ ∀ h, r = some h → D.HostsStraight Hosted h)
        (read _ fun σ => ⟨rfl, fun h hr => ?_⟩) ?_
      · obtain ⟨entry, hmem, rfl⟩ := FormTable.exists_mem_of_invoked? hr
        exact hF entry hmem
      · rintro (_ | handler) m - ⟨rfl, hr⟩
        · exact application hL hA ho hc' he
        · exact hr handler rfl hc' he
  | number | string | bool | unspecified => exact fail hL trivial
  | _ => exact application hL hA ho hc' he

theorem step (hL : D.Laws) (hA : D.AmongCalls Hosted)
    (hF : ∀ entry ∈ forms.entries, D.HostsStraight Hosted entry.2) {e : Value}
    (hc : D.Allows .code n e) (he : D.Scope n env) :
    Straight D Hosted n (fun ev depth => Evaluator.step forms ev e env depth)
      fun v m => D.Allows .result m v := by
  cases e with
  | eof => exact fail hL trivial
  | symbol name => exact evalSymbol hL name he
  | delayed id e scope => exact .force (hL.code_delayed hc).1 (hL.code_delayed hc).2
  | reference name scope => exact fail hL trivial
  | list es => exact .explain _ (evalList hL hA hF (hL.code_elements hc) he)
  | _ => exact pure _ (hL.code_result hc)

end Straight

namespace Routine

variable {D : Discipline} {forms : FormTable} {n : Nat} {env : Env}

theorem evalSymbol (hL : D.Laws) (name : String) (he : D.Scope n env) :
    Routine D n (fun ev depth => ev.evalSymbol name env depth)
      fun v m => D.Allows .result m v :=
  (Straight.evalSymbol hL name he).routine fun _ => id

theorem sequence (hL : D.Laws) {es : List Value} (hc : ∀ e ∈ es, D.Allows .code n e)
    (he : D.Scope n env) :
    Routine D n (fun ev depth => ev.sequence es env depth) fun v m => D.Allows .result m v :=
  (Straight.sequence hL hc he).routine fun _ => id

theorem hosts_amongCalls (hL : D.Laws) : D.Hosts Form.amongCalls := by
  intro n operands env hc _
  refine .bind (.primitive .stack) fun scope m hm hs => ?_
  exact sequence hL (fun e h => hL.mono hm (hc e h)) hs

theorem amongCalls (hL : D.Laws) : D.AmongCalls D.Hosts :=
  fun _ _ _ _ => hosts_amongCalls hL

theorem apply (hL : D.Laws) {f : Value} {args : List Value} (hf : D.Allows .result n f)
    (ha : Straight.Fit D f n args) :
    Routine D n (fun ev depth => ev.apply f args depth) fun v m => D.Allows .result m v :=
  (Straight.apply hL hf ha).routine fun _ => id

theorem evalForm {head : String} {handler : Handler} (hf : forms.find? head = some handler)
    (hH : D.Hosts handler) {operands : List Value} (hc : ∀ e ∈ operands, D.Allows .code n e)
    (he : D.Scope n env) :
    Routine D n (fun ev depth => Evaluator.evalList forms ev (.symbol head :: operands) env depth)
      fun v m => D.Allows .result m v :=
  (Straight.evalForm hf (fun hc he => .invoke @hH hc he) hc he).routine fun _ => id

theorem evalList (hL : D.Laws) (hF : D.HostsAll forms) {es : List Value}
    (hc : ∀ e ∈ es, D.Allows .code n e) (he : D.Scope n env) :
    Routine D n (fun ev depth => Evaluator.evalList forms ev es env depth)
      fun v m => D.Allows .result m v :=
  (Straight.evalList hL (amongCalls hL) hF.straight hc he).routine fun _ => id

theorem step (hL : D.Laws) (hF : D.HostsAll forms) {e : Value} (hc : D.Allows .code n e)
    (he : D.Scope n env) :
    Routine D n (fun ev depth => Evaluator.step forms ev e env depth)
      fun v m => D.Allows .result m v :=
  (Straight.step hL (amongCalls hL) hF.straight hc he).routine fun _ => id

theorem hosts_begin (hL : D.Laws) : D.Hosts Form.begin :=
  fun hc he => (Straight.hosts_begin hL hc he).routine fun _ => id

theorem hosts_choice (hL : D.Laws) : D.Hosts Form.choice :=
  fun hc he => (Straight.hosts_choice hL hc he).routine fun _ => id

theorem hosts_core (hL : D.Laws) (hx : D.Expands) :
    ∀ entry ∈ FormTable.core.entries, D.Hosts entry.2 :=
  fun entry h _ _ _ hc he => (Straight.hosts_core hL hx entry h hc he).routine fun _ => id

end Routine

end PassingLisp
