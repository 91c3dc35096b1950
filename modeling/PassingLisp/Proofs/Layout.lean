import PassingLisp.Proofs.Comments
import PassingLisp.Proofs.Printing

namespace PassingLisp

open Grammar

namespace Grammar

inductive Gap : List Char → Prop where
  | nil : Gap []
  | blanks {b s : List Char} (hb : Blanks b) (h : Gap s) : Gap (b ++ s)
  | comment {t s : List Char} (ht : '\n' ∉ t) (h : Gap s) : Gap (';' :: (t ++ '\n' :: s))

inductive LastGap : List Char → Prop where
  | closed {s : List Char} (h : Gap s) : LastGap s
  | comment {s t : List Char} (h : Gap s) (ht : '\n' ∉ t) : LastGap (s ++ ';' :: t)

inductive Spaced : List (List Char) → List Char → Prop where
  | nil : Spaced [] []
  | one (s : List Char) : Spaced [s] s
  | cons {s s' g t : List Char} {ss : List (List Char)} (hg : Gap g) (hne : g ≠ [])
      (h : Spaced (s' :: ss) t) : Spaced (s :: s' :: ss) (s ++ g ++ t)

end Grammar

namespace Reader.Comment

variable {s t g : List Char} {ss : List (List Char)}

theorem stripFrom_comment (ht : '\n' ∉ t) :
    stripFrom .comment t = [] ∧ after .comment t = .comment := by
  induction t with
  | nil => exact ⟨rfl, rfl⟩
  | cons c t ih =>
      rw [List.mem_cons, not_or] at ht
      obtain ⟨hc, ht⟩ := ht
      have hnext : next .comment c = .comment := by simp [next, Ne.symm hc]
      rw [stripFrom, after_cons, hnext, if_pos rfl]
      exact ih ht

theorem strip_comment (ht : '\n' ∉ t) (s : List Char) :
    strip (';' :: (t ++ s)) = stripFrom .comment s ∧
      after .code (';' :: (t ++ s)) = after .comment s := by
  obtain ⟨hstrip, hafter⟩ := stripFrom_comment ht
  have hopen : strip (';' :: (t ++ s)) = stripFrom .comment (t ++ s) := rfl
  rw [hopen, stripFrom_append, hstrip, hafter, after_cons]
  refine ⟨rfl, ?_⟩
  have hnext : next .code ';' = .comment := rfl
  rw [hnext, after_append, hafter]

theorem blanks_of_gap (h : Gap g) :
    Blanks (strip g) ∧ after .code g = .code ∧ (g ≠ [] → strip g ≠ []) := by
  induction h with
  | nil => exact ⟨Text.blanks_nil, rfl, id⟩
  | @blanks b s hb _ ih =>
      obtain ⟨hblank, hafter, hne⟩ := ih
      have hclear := Clear.of_blanks hb
      rw [hclear.strip_append, hclear.after_append]
      refine ⟨List.forall_mem_append.mpr ⟨hb, hblank⟩, hafter, fun h => ?_⟩
      simp only [ne_eq, List.append_eq_nil_iff, not_and] at h ⊢
      exact fun hb => hne (h hb)
  | @comment t s ht _ ih =>
      obtain ⟨hblank, hafter, -⟩ := ih
      obtain ⟨hstrip, hafter'⟩ := strip_comment ht ('\n' :: s)
      have hnewline : stripFrom .comment ('\n' :: s) = '\n' :: strip s := rfl
      rw [hstrip, hafter', hnewline]
      exact ⟨List.forall_mem_cons.mpr ⟨by decide, hblank⟩, hafter, fun _ => by simp⟩

theorem blanks_of_lastGap (h : LastGap g) : Blanks (strip g) := by
  cases h with
  | closed h => exact (blanks_of_gap h).1
  | @comment s t h ht =>
      obtain ⟨hblank, hafter, -⟩ := blanks_of_gap h
      have hlast := (strip_comment ht []).1
      rw [List.append_nil] at hlast
      have hnil : stripFrom .code (';' :: t) = [] := hlast
      rw [strip, stripFrom_append, hafter, hnil, List.append_nil]
      exact hblank

theorem separated_of_spaced (h : Spaced ss s) (hss : ∀ s ∈ ss, Clear s) :
    Separated ss (strip s) ∧ after .code s = .code := by
  induction h with
  | nil => exact ⟨.nil, rfl⟩
  | one s =>
      have hs := hss s (by simp)
      rw [hs.strip_eq]
      exact ⟨.one s, hs.after_eq⟩
  | @cons s s' g t ss hg hne _ ih =>
      obtain ⟨hs, hss⟩ := List.forall_mem_cons.mp hss
      obtain ⟨hsep, hafter⟩ := ih hss
      obtain ⟨hblank, hgap, hstrip⟩ := blanks_of_gap hg
      have htext : strip (s ++ g ++ t) = s ++ strip g ++ strip t := by
        rw [List.append_assoc, hs.strip_append, strip, stripFrom_append, hgap, List.append_assoc]
        rfl
      refine ⟨htext ▸ .cons hblank (hstrip hne) hsep, ?_⟩
      rw [List.append_assoc, hs.after_append, after_append, hgap, hafter]

end Reader.Comment

namespace Reader

theorem program_spaced (vs : List Value)
    (hvs : ∀ v ∈ vs, v.Writable ∧ ∀ k, v.HasListAt k → k ≤ 30) (lead s last : List Char)
    (hlead : Gap lead) (hs : Spaced (vs.map Value.spelling) s) (hlast : LastGap last) :
    program true (lead ++ s ++ last) = .ok vs := by
  have hsexpr (i : List Char × Value) (hi : i ∈ Value.spelled vs) : Sexpr 0 i.1 i.2 := by
    obtain ⟨v, hv, rfl⟩ := List.mem_map.mp hi
    obtain ⟨hw, hk⟩ := hvs v hv
    exact Value.sexpr_of_writable hw (by omega) fun k h => by simpa using hk k h
  have hclear (s : List Char) (hs : s ∈ (Value.spelled vs).map (·.1)) : Comment.Clear s := by
    obtain ⟨i, hi, rfl⟩ := List.mem_map.mp hs
    exact .of_sexpr (hsexpr i hi)
  have hspelled : (Value.spelled vs).map (·.1) = vs.map Value.spelling := by
    rw [Value.spelled, List.map_map]
    rfl
  rw [← hspelled] at hs
  obtain ⟨hsep, hafter⟩ := Comment.separated_of_spaced hs hclear
  obtain ⟨hblank, hgap, -⟩ := Comment.blanks_of_gap hlead
  have hread := sequence_of_separated hblank hsep hsexpr (Comment.blanks_of_lastGap hlast)
  have hstrip : Comment.strip (lead ++ s ++ last) =
      Comment.strip lead ++ Comment.strip s ++ Comment.strip last := by
    rw [List.append_assoc, Comment.strip, Comment.stripFrom_append, hgap,
      Comment.stripFrom_append, hafter, List.append_assoc]
    rfl
  rw [Value.map_snd_spelled, ← hstrip] at hread
  exact hread

theorem writable_of_one {s : List Char} {v : Value} (h : one s = .ok v) :
    v.Writable ∧ ∀ k, v.HasListAt k → k ≤ 30 := by
  obtain ⟨t, b, rfl, ht, -⟩ := expression_of_one h
  obtain ⟨hv, hk⟩ := Value.writable_of_sexpr ht
  exact ⟨hv, fun k h => by simpa using hk k h⟩

def remarked : List Value :=
  [.list [.symbol "a", .string "x;\"\\"], .number (-5)]

def remarkedText : List Char :=
  "(a \"x;\\\"\\\\\");;\"'\\\n-5".toList

theorem program_spaced_remarked :
    (∀ v ∈ remarked, v.Writable ∧ ∀ k, v.HasListAt k → k ≤ 30) ∧ Gap ";\"(\n\t".toList ∧
      Spaced (remarked.map Value.spelling) remarkedText ∧ LastGap " ; \"".toList ∧
      program true (";\"(\n\t".toList ++ remarkedText ++ " ; \"".toList) = .ok remarked := by
  have hvs : ∀ v ∈ remarked, v.Writable ∧ ∀ k, v.HasListAt k → k ≤ 30 := by
    intro v hv
    simp only [remarked, List.mem_cons, List.not_mem_nil, or_false] at hv
    rcases hv with rfl | rfl
    · exact writable_of_one (s := "(a \"x;\\\"\\\\\")".toList) (by rfl)
    · exact writable_of_one (s := "-5".toList) (by rfl)
  have hlead : Gap ";\"(\n\t".toList :=
    .comment (t := "\"(".toList) (by decide) (.blanks (b := ['\t']) (by simp [Blanks]) .nil)
  have hgap : Gap ";;\"'\\\n".toList := .comment (t := ";\"'\\".toList) (by decide) .nil
  have hs : Spaced (remarked.map Value.spelling) remarkedText :=
    .cons hgap (by decide) (.one _)
  have hspace : Gap [' '] := .blanks (b := [' ']) (by simp [Blanks]) .nil
  have hlast : LastGap " ; \"".toList := .comment (t := " \"".toList) hspace (by decide)
  exact ⟨hvs, hlead, hs, hlast, program_spaced remarked hvs _ _ _ hlead hs hlast⟩

end Reader

end PassingLisp
