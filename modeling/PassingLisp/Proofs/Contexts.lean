import PassingLisp.Eval.Step

namespace PassingLisp

namespace Text

def before (mark : List Char) : List Char → List Char
  | [] => []
  | c :: cs => if mark.isPrefixOf (c :: cs) then [] else c :: before mark cs

theorem before_eq_self {mark text : List Char} (h : ¬ mark <:+: text) : before mark text = text := by
  induction text with
  | nil => rfl
  | cons c cs ih =>
      rw [List.infix_cons_iff, not_or] at h
      rw [before, if_neg (by simpa using h.1), ih h.2]

theorem before_append_mark {c : Char} {mark text : List Char} (hc : c ∉ mark)
    (h : ¬ (c :: mark) <:+: text) (rest : List Char) :
    before (c :: mark) (text ++ c :: mark ++ rest) = text := by
  induction text with
  | nil => simp [before]
  | cons d text ih =>
      rw [List.infix_cons_iff, not_or] at h
      have hprefix : ¬ (c :: mark) <+: d :: text ++ c :: mark ++ rest := by
        intro hp
        obtain ⟨rfl, hmark⟩ := List.cons_prefix_cons.mp hp
        have htext : text ++ [c] <+: text ++ c :: mark ++ rest := by simp
        rcases List.prefix_or_prefix_of_prefix hmark htext with hp | hp
        · rcases List.prefix_concat_iff.mp hp with rfl | hp
          · exact hc (by simp)
          · exact h.1 (List.cons_prefix_cons.mpr ⟨rfl, hp⟩)
        · exact hc (hp.subset (by simp))
      rw [List.cons_append, List.cons_append, before, if_neg (by simpa using hprefix), ih h.2]

end Text

namespace Error

def plain : Error → Error
  | evaluation text => evaluation (.ofList (Text.before contextMark.toList text.toList))
  | type text => type (.ofList (Text.before contextMark.toList text.toList))
  | e => e

theorem before_located (expr : Value) (text : String) :
    Text.before contextMark.toList (located expr text).toList =
      Text.before contextMark.toList text.toList := by
  unfold located
  split
  · rfl
  · rename_i h
    have h : ¬ contextMark.toList <:+: text.toList := mt Text.holds_iff.mpr h
    rw [Text.before_eq_self h, String.append_assoc, String.append_assoc, String.toList_append,
      String.toList_append, ← List.append_assoc]
    exact Text.before_append_mark (c := '\n') (by decide) h _

theorem plain_locate (expr : Value) (e : Error) : (e.locate expr).plain = e.plain := by
  cases e with
  | evaluation text => simp only [locate, plain, before_located]
  | type text => simp only [locate, plain, before_located]
  | _ => rfl

end Error

def Stop.plain : Stop → Stop
  | failed e => failed e.plain
  | diverged => diverged

theorem Stop.plain_locate (expr : Value) (stop : Stop) : (stop.locate expr).plain = stop.plain := by
  cases stop with
  | failed e => exact congrArg failed (e.plain_locate expr)
  | diverged => rfl

namespace Effect

variable {α β : Type}

def plain (x : Effect α) : Effect α :=
  explain Stop.plain x

theorem plain_explain_locate (expr : Value) (x : Effect α) :
    plain (explain (Stop.locate expr) x) = plain x := by
  funext s
  unfold plain explain
  cases x s with
  | ok a t => rfl
  | error e t => exact congrArg (EStateM.Result.error · t) (e.plain_locate expr)

theorem plain_bind (x : Effect α) (f : α → Effect β) :
    plain (x >>= f) = plain x >>= fun a => plain (f a) := by
  funext s
  simp only [plain, explain, bind_apply]
  cases x s <;> rfl

theorem plain_congr {x y : Effect α} {s : State} (h : x s = y s) : plain x s = plain y s := by
  simp only [plain, explain, h]

end Effect

end PassingLisp
