import PassingLisp.Session

namespace PassingLisp

namespace Outcome

def Answers (o : Outcome) : Prop :=
  (∃ v, o = .value v) ∨ o = .silent

def Leaves (o : Outcome) : Prop :=
  o = .exit ∨ o = .diverged

variable {o : Outcome}

theorem endsLine_eq_false_iff : o.endsLine = false ↔ o.Answers := by
  cases o <;> simp [endsLine, Answers]

theorem endsLine_eq_true_iff : o.endsLine = true ↔ (∃ e, o = .error e) ∨ o.Leaves := by
  cases o <;> simp [endsLine, Leaves]

theorem endsScript_iff : o.endsScript = true ↔ o.Leaves := by
  cases o <;> simp [endsScript, Leaves]

end Outcome

theorem findIdx_eq_of_first {α : Type} {p : α → Bool} {l : List α} {a : α} {n : Nat}
    (hget : l[n]? = some a) (ha : p a = true) (hbefore : ∀ b ∈ l.take n, p b = false) :
    l.findIdx p = n := by
  obtain ⟨hn, rfl⟩ := List.getElem?_eq_some_iff.mp hget
  refine (List.findIdx_eq hn).mpr ⟨ha, fun j hj => hbefore _ ?_⟩
  exact List.mem_take_iff_getElem.mpr ⟨j, by omega, rfl⟩

namespace Session

def after (s : Session) : List Value → Session
  | [] => s
  | item :: items => (s.evalItem item).2.after items

def outcomes (s : Session) : List Value → List Outcome
  | [] => []
  | item :: items => (s.evalItem item).1 :: (s.evalItem item).2.outcomes items

variable {s : Session} {text : String} {items : List Value}

@[simp] theorem length_outcomes (s : Session) (items : List Value) :
    (s.outcomes items).length = items.length := by
  induction items generalizing s with
  | nil => rfl
  | cons item items ih => simp [outcomes, ih]

theorem outcomes_take (s : Session) (items : List Value) (n : Nat) :
    s.outcomes (items.take n) = (s.outcomes items).take n := by
  induction items generalizing s n with
  | nil => simp [outcomes]
  | cons item items ih =>
      cases n with
      | zero => rfl
      | succ n => simp [outcomes, ih]

theorem runItems_eq (items : List Value) (s : Session) :
    runItems items s =
      (s.outcomes (items.take ((s.outcomes items).findIdx Outcome.endsScript + 1)),
        s.after (items.take ((s.outcomes items).findIdx Outcome.endsScript + 1))) := by
  induction items generalizing s with
  | nil => rfl
  | cons item items ih =>
      rw [runItems, outcomes, List.findIdx_cons]
      cases h : (s.evalItem item).1.endsScript with
      | true => simp [h, outcomes, after]
      | false => simp [h, ih, outcomes, after]

theorem evalItems_eq (last : Outcome) (items : List Value) (s : Session) :
    evalItems last items s =
      ((s.outcomes (items.take ((s.outcomes items).findIdx Outcome.endsLine + 1))).getLast?.getD
          last,
        s.after (items.take ((s.outcomes items).findIdx Outcome.endsLine + 1))) := by
  induction items generalizing s last with
  | nil => rfl
  | cons item items ih =>
      rw [evalItems, outcomes, List.findIdx_cons]
      cases h : (s.evalItem item).1.endsLine with
      | true => simp [h, outcomes, after]
      | false => simp [h, ih, outcomes, after, List.getLast?_cons]

section

variable {n : Nat} {o : Outcome}

theorem fst_runItems (items : List Value) (s : Session) :
    (runItems items s).1 =
      (s.outcomes items).take ((s.outcomes items).findIdx Outcome.endsScript + 1) := by
  rw [runItems_eq, outcomes_take]

theorem length_runItems (items : List Value) (s : Session) :
    (runItems items s).1.length =
      min ((s.outcomes items).findIdx Outcome.endsScript + 1) items.length := by
  rw [fst_runItems, List.length_take, length_outcomes]

theorem runItems_eq_length (items : List Value) (s : Session) :
    runItems items s =
      (s.outcomes (items.take (runItems items s).1.length),
        s.after (items.take (runItems items s).1.length)) := by
  have htake : items.take (runItems items s).1.length =
      items.take ((s.outcomes items).findIdx Outcome.endsScript + 1) := by
    rw [List.take_eq_take_iff, length_runItems, Nat.min_assoc, Nat.min_self]
  rw [htake, ← runItems_eq]

theorem runItems_take {n : Nat} (hn : n ≤ (runItems items s).1.length) :
    runItems (items.take n) s = ((runItems items s).1.take n, s.after (items.take n)) := by
  rw [length_runItems] at hn
  have hlen : n ≤ min n ((s.outcomes items).findIdx Outcome.endsScript) + 1 := by omega
  have hle : n ≤ (s.outcomes items).findIdx Outcome.endsScript + 1 := by omega
  rw [runItems_eq, outcomes_take s items n, List.findIdx_take, List.take_take,
    Nat.min_eq_right hlen, outcomes_take, fst_runItems, List.take_take, Nat.min_eq_left hle]

theorem getElem?_outcomes (h : (runItems items s).1[n]? = some o) :
    (s.outcomes items)[n]? = some o := by
  rw [fst_runItems, List.getElem?_take] at h
  split at h
  · exact h
  · cases h

theorem take_outcomes (hn : n ≤ (runItems items s).1.length) :
    (s.outcomes items).take n = (runItems items s).1.take n := by
  rw [length_runItems] at hn
  rw [fst_runItems, List.take_take, Nat.min_eq_left (by omega)]

theorem length_eq_of_leaves (hn : (runItems items s).1[n]? = some o) (ho : o.Leaves) :
    n + 1 = (runItems items s).1.length := by
  have hlt := (List.getElem?_eq_some_iff.mp hn).1
  obtain ⟨hn, rfl⟩ := List.getElem?_eq_some_iff.mp (getElem?_outcomes hn)
  have hle : ¬ n < (s.outcomes items).findIdx Outcome.endsScript := fun hlt => by
    have hends := List.not_of_lt_findIdx hlt
    rw [Outcome.endsScript_iff.mpr ho] at hends
    cases hends
  rw [length_runItems] at hlt ⊢
  omega

theorem length_eq_or_leaves (items : List Value) (s : Session) :
    (runItems items s).1.length = items.length ∨
      ∃ o, (runItems items s).1.getLast? = some o ∧ o.Leaves := by
  by_cases hlt : (s.outcomes items).findIdx Outcome.endsScript < (s.outcomes items).length
  · refine .inr ⟨_, ?_, Outcome.endsScript_iff.mp (List.findIdx_getElem (w := hlt))⟩
    rw [fst_runItems, List.getLast?_take, if_neg (Nat.succ_ne_zero _), Nat.add_sub_cancel,
      List.getElem?_eq_getElem hlt, Option.some_or]
  · rw [length_outcomes] at hlt
    rw [length_runItems]
    omega

theorem evalItems_of_first (hn : (runItems items s).1[n]? = some o) (ho : o.endsLine = true)
    (hbefore : ∀ o' ∈ (runItems items s).1.take n, o'.Answers) (last : Outcome) :
    evalItems last items s = (o, s.after (items.take (n + 1))) := by
  have hget := getElem?_outcomes hn
  have hlt := (List.getElem?_eq_some_iff.mp hn).1
  rw [← take_outcomes (Nat.le_of_lt hlt)] at hbefore
  have hfirst : (s.outcomes items).findIdx Outcome.endsLine = n :=
    findIdx_eq_of_first hget ho fun o' ho' => Outcome.endsLine_eq_false_iff.mpr (hbefore o' ho')
  rw [evalItems_eq, hfirst, outcomes_take, List.getLast?_take, if_neg (Nat.succ_ne_zero n),
    Nat.add_sub_cancel, hget]
  rfl

theorem evalItems_of_answers (h : ∀ o ∈ (runItems items s).1, o.Answers) (last : Outcome) :
    evalItems last items s = ((runItems items s).1.getLast?.getD last, s.after items) := by
  have hlen : (runItems items s).1.length = items.length := by
    refine (length_eq_or_leaves items s).resolve_right ?_
    rintro ⟨o, ho, hleaves⟩
    have hends := Outcome.endsLine_eq_false_iff.mpr (h o (List.mem_of_getLast? ho))
    rw [Outcome.endsLine_eq_true_iff.mpr (.inr hleaves)] at hends
    cases hends
  have hall : (runItems items s).1 = s.outcomes items := by
    rw [length_runItems] at hlen
    rw [fst_runItems, List.take_of_length_le]
    rw [length_outcomes]
    omega
  have hnone : (s.outcomes items).findIdx Outcome.endsLine = items.length := by
    rw [List.findIdx_eq_length_of_false, length_outcomes]
    intro o ho
    exact Outcome.endsLine_eq_false_iff.mpr (h o (hall ▸ ho))
  rw [evalItems_eq, hnone, List.take_of_length_le (Nat.le_succ _), hall]

end

structure RunsAlike (s : Session) (text : String) (items : List Value) (outs : List Outcome) :
    Prop where
  length_le : outs.length ≤ items.length
  script_eq : s.runScript text =
    (s.outcomes (items.take outs.length), s.after (items.take outs.length))
  script_stops {n : Nat} {o : Outcome} : outs[n]? = some o → o.Leaves → n + 1 = outs.length
  script_ends : outs.length = items.length ∨ ∃ o, outs.getLast? = some o ∧ o.Leaves
  script_prefix {n : Nat} : n ≤ outs.length →
    runItems (items.take n) s = (outs.take n, s.after (items.take n))
  line_stops {n : Nat} {o : Outcome} : outs[n]? = some o → (∃ e, o = .error e) ∨ o.Leaves →
    (∀ o' ∈ outs.take n, o'.Answers) → s.evalLine text = (o, s.after (items.take (n + 1)))
  line_ends : (∀ o ∈ outs, o.Answers) →
    s.evalLine text = (outs.getLast?.getD .silent, s.after items)

def ReadsAlike (s : Session) (text : String) : Prop :=
  match Reader.program s.comments text.toList with
  | .error e =>
      s.runScript text = ([.error (.parse e)], s) ∧ s.evalLine text = (.error (.parse e), s)
  | .ok items => s.RunsAlike text items (s.runScript text).1

theorem runsAlike_of_read (h : Reader.program s.comments text.toList = .ok items) :
    s.RunsAlike text items (s.runScript text).1 := by
  have hscript : s.runScript text = runItems items s := by rw [runScript, h]
  have hline : s.evalLine text = evalItems .silent items s := by rw [evalLine, h]
  rw [hscript]
  constructor
  case length_le =>
    rw [length_runItems]
    exact Nat.min_le_right _ _
  case script_eq => rw [hscript, ← runItems_eq_length]
  case script_stops => exact length_eq_of_leaves
  case script_ends => exact length_eq_or_leaves items s
  case script_prefix => exact runItems_take
  case line_stops =>
    intro n o hn ho hbefore
    rw [hline, evalItems_of_first hn (Outcome.endsLine_eq_true_iff.mpr ho) hbefore]
  case line_ends =>
    intro hall
    rw [hline, evalItems_of_answers hall]

theorem readsAlike (s : Session) (text : String) : s.ReadsAlike text := by
  unfold ReadsAlike
  split
  · next e he => exact ⟨by rw [runScript, he], by rw [evalLine, he]⟩
  · next items hitems => exact runsAlike_of_read hitems

example : ((({} : Session).runScript "1 x 2").1, (({} : Session).evalLine "1 x 2").1) =
    ([.value (.number 1), .error (.unbound "x"), .value (.number 2)], .error (.unbound "x")) :=
  rfl

end Session

end PassingLisp
