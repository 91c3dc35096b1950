import PassingLisp.Proofs.Seams

namespace PassingLisp

open Grammar

theorem Text.byteLength_eq_zero_iff {s : List Char} : byteLength s = 0 ↔ s = [] := by
  cases s with
  | nil => simp
  | cons c s =>
      have hc := c.utf8Size_pos
      simp only [byteLength_cons, reduceCtorEq, iff_false]
      omega

namespace Reader

variable {d fuel : Nat} {p q s t b rest left input : List Char} {v : Value} {vs ws : List Value}
  {f : Fault} {items : List (List Char × Value)}

theorem sexpr_ne_nil (h : Sexpr d s v) : s ≠ [] := by
  cases h with
  | atom _ _ h =>
      obtain ⟨c, a, rfl, -⟩ := head_of_atom h
      simp
  | _ => simp

theorem length_lt_of_datum (h : datum maxNesting input = .ok (v, rest)) :
    rest.length < input.length := by
  obtain ⟨s, rfl, hs⟩ := sound_datum (d := 0) rfl h
  have hpos := List.length_pos_iff.mpr (sexpr_ne_nil hs)
  rw [List.length_append]
  omega

inductive Items : List Char → List Value → List Char → Prop where
  | nil (s : List Char) : Items s [] s
  | cons {s rest left : List Char} {v : Value} {vs : List Value}
      (hv : datum maxNesting s = .ok (v, rest)) (h : Items rest vs left) : Items s (v :: vs) left

namespace Items

theorem append (h : Items s vs rest) (h' : Items rest ws left) : Items s (vs ++ ws) left := by
  induction h with
  | nil => exact h'
  | cons hv _ ih => exact .cons hv (ih h')

theorem append_right (ht : Boundary t) (h : Items s vs rest) : Items (s ++ t) vs (rest ++ t) := by
  induction h with
  | nil s => exact .nil _
  | cons hv _ ih => exact .cons (datum_append ht (d := 0) rfl hv) ih

theorem blanks_cons (hb : Blanks b) (h : Items s (v :: vs) rest) :
    Items (b ++ s) (v :: vs) rest := by
  cases h with
  | cons hv h =>
      refine .cons ?_ h
      rw [maxNesting, datum, Text.skipBlank_append hb]
      exact hv

theorem blanks (hb : Blanks b) (h : Items s vs rest) :
    ∃ left, Items (b ++ s) vs left ∧ Text.skipBlank left = Text.skipBlank rest := by
  cases vs with
  | nil =>
      cases h
      exact ⟨b ++ s, .nil _, Text.skipBlank_append hb s⟩
  | cons v vs => exact ⟨rest, h.blanks_cons hb, rfl⟩

theorem of_separated (hs : Separated (items.map (·.1)) s) (hi : ∀ i ∈ items, Sexpr 0 i.1 i.2)
    (hrest : Boundary rest) : Items (s ++ rest) (items.map (·.2)) rest := by
  induction items generalizing s with
  | nil =>
      cases hs
      exact .nil rest
  | cons i items ih =>
      obtain ⟨hi, his⟩ := List.forall_mem_cons.mp hi
      have htakes : Takes (datum maxNesting) i.1 i.2 := datum_of_sexpr hi rfl
      cases items with
      | nil =>
          cases hs
          exact .cons (htakes hrest) (.nil rest)
      | cons j items =>
          cases hs with
          | @cons _ _ b t _ hb hne hs =>
              have hb' : Boundary (b ++ (t ++ rest)) := boundary_append hb fun h => absurd h hne
              rw [List.append_assoc, List.append_assoc]
              exact .cons (htakes hb') ((ih hs his).blanks_cons hb)

theorem suffix (h : Items s vs rest) : rest <:+ s := by
  induction h with
  | nil s => exact List.suffix_rfl
  | cons hv _ ih =>
      obtain ⟨u, rfl, -⟩ := sound_datum (d := 0) rfl hv
      exact ih.trans (List.suffix_append u _)

theorem ne_nil_of_not_blanks (h : Items s vs rest) (hb : ¬ Blanks rest) : s ≠ [] := by
  rintro rfl
  rw [List.suffix_nil.mp h.suffix] at hb
  exact hb Text.blanks_nil

theorem many_eq (h : Items s vs rest) (hf : datum maxNesting rest = .error f)
    (hfuel : s.length < fuel) :
    many (datum maxNesting) fuel s = if f.isFinal then .error f else .ok (vs, rest) := by
  induction h generalizing fuel with
  | nil s =>
      obtain ⟨fuel, rfl⟩ := Nat.exists_eq_add_of_lt hfuel
      rw [many, hf]
  | cons hv _ ih =>
      have hlt := length_lt_of_datum hv
      cases fuel with
      | zero => omega
      | succ fuel =>
          simp only [many, hv, ih hf (show _ < fuel by omega)]
          cases f.isFinal <;> rfl

end Items

theorem exists_items (s : List Char) :
    ∃ vs rest f, Items s vs rest ∧ datum maxNesting rest = .error f := by
  induction hn : s.length using Nat.strongRecOn generalizing s with
  | ind n ih =>
      cases hs : datum maxNesting s with
      | error f => exact ⟨[], s, f, .nil s, hs⟩
      | ok found =>
          obtain ⟨v, rest⟩ := found
          have hlt := length_lt_of_datum hs
          obtain ⟨vs, left, f, h, hf⟩ := ih rest.length (by omega) rest rfl
          exact ⟨v :: vs, left, f, .cons hs h, hf⟩

def Fault.cause : Fault → ParseError.Kind
  | .tooDeep _ => .tooDeeplyNested
  | f => if f.rest = [] then .incomplete else .invalidSyntax

theorem Fault.atEnd_eq (h : input ≠ []) (f : Fault) : f.atEnd input = decide (f.rest = []) := by
  have hinput := mt Text.byteLength_eq_zero_iff.mp h
  have hrest := Text.byteLength_eq_zero_iff (s := f.rest)
  unfold atEnd position
  rw [decide_eq_decide, ← hrest]
  omega

theorem Fault.kind_eq_cause (h : input ≠ []) (f : Fault) : f.kind input = f.cause := by
  cases f with
  | tooDeep rest => rfl
  | _ => simp only [kind, cause, atEnd_eq h, decide_eq_true_eq]

theorem datum_of_blanks (hb : Blanks s) : datum maxNesting s = .error (.malformed []) := by
  rw [maxNesting, datum, Text.skipBlank_eq_nil_iff.mpr hb]
  rfl

theorem sequence_of_items (h : Items s vs rest) (hb : Blanks rest) : sequence s = .ok vs := by
  simp only [sequence, h.many_eq (datum_of_blanks hb) (Nat.lt_succ_self _), Fault.isFinal,
    Bool.false_eq_true, if_false, Text.skipBlank_eq_nil_iff.mpr hb]

theorem kind_leftover (hf : datum maxNesting rest = .error f) (hne : rest ≠ []) :
    (leftover input rest).kind = f.cause := by
  unfold leftover
  rw [hf]
  dsimp only
  split
  · exact f.kind_eq_cause hne
  · exact f.kind_eq_cause hne

theorem exists_error_of_items (h : Items s vs rest) (hf : datum maxNesting rest = .error f)
    (hb : ¬ Blanks rest) : ∃ e, sequence s = .error e ∧ e.kind = f.cause := by
  unfold sequence
  rw [h.many_eq hf (Nat.lt_succ_self _)]
  have hskip : Text.skipBlank rest ≠ [] := mt Text.skipBlank_eq_nil_iff.mp hb
  cases f.isFinal with
  | true => exact ⟨_, rfl, f.kind_eq_cause (h.ne_nil_of_not_blanks hb)⟩
  | false =>
      have hf' : datum maxNesting (Text.skipBlank rest) = .error f := by
        rw [maxNesting, datum_skipBlank]
        exact hf
      obtain ⟨c, left, hleft⟩ := List.exists_cons_of_ne_nil hskip
      rw [hleft] at hf'
      refine ⟨leftover s (c :: left), ?_, kind_leftover hf' (by simp)⟩
      simp only [Bool.false_eq_true, if_false, hleft]

theorem exists_items_of_sequence (h : sequence s = .ok vs) :
    ∃ rest, Items s vs rest ∧ Blanks rest := by
  obtain ⟨ws, rest, f, hitems, hf⟩ := exists_items s
  by_cases hb : Blanks rest
  · rw [sequence_of_items hitems hb] at h
    cases h
    exact ⟨rest, hitems, hb⟩
  · obtain ⟨e, he, -⟩ := exists_error_of_items hitems hf hb
    rw [he] at h
    cases h

theorem exists_items_of_error {e : ParseError} (h : sequence s = .error e) :
    ∃ vs rest f, Items s vs rest ∧ datum maxNesting rest = .error f ∧ ¬ Blanks rest ∧
      e.kind = f.cause := by
  obtain ⟨vs, rest, f, hitems, hf⟩ := exists_items s
  by_cases hb : Blanks rest
  · rw [sequence_of_items hitems hb] at h
    cases h
  · obtain ⟨e', he, hkind⟩ := exists_error_of_items hitems hf hb
    rw [he] at h
    cases h
    exact ⟨vs, rest, f, hitems, hf, hb, hkind⟩

theorem sequence_of_separated {b' : List Char} (hb : Blanks b)
    (hs : Separated (items.map (·.1)) s) (hi : ∀ i ∈ items, Sexpr 0 i.1 i.2) (hb' : Blanks b') :
    sequence (b ++ s ++ b') = .ok (items.map (·.2)) := by
  obtain ⟨left, hitems, hleft⟩ := (Items.of_separated hs hi (boundary_of_blanks hb')).blanks hb
  have hblank : Blanks left := by
    rw [← Text.skipBlank_eq_nil_iff, hleft, Text.skipBlank_eq_nil_iff]
    exact hb'
  rw [List.append_assoc]
  exact sequence_of_items hitems hblank

theorem boundary_newline (q : List Char) : Boundary ('\n' :: q) := by
  intro c hc
  cases hc
  exact .inl rfl

theorem Items.newline (hp : Items p vs rest) (hb : Blanks rest) (hq : Items q ws left) :
    ∃ left', Items (p ++ '\n' :: q) (vs ++ ws) left' ∧
      Text.skipBlank left' = Text.skipBlank left := by
  have hblank : Blanks (rest ++ ['\n']) := by
    intro c hc
    rcases List.mem_append.mp hc with hc | hc
    · exact hb c hc
    · simp [List.mem_singleton.mp hc]
  obtain ⟨left', hleft, hskip⟩ := hq.blanks hblank
  rw [List.append_assoc] at hleft
  exact ⟨left', (hp.append_right (boundary_newline q)).append hleft, hskip⟩

theorem sequence_newline (hp : sequence p = .ok vs) (q : List Char) :
    (∀ ws, sequence q = .ok ws → sequence (p ++ '\n' :: q) = .ok (vs ++ ws)) ∧
      ∀ e, sequence q = .error e →
        ∃ e', sequence (p ++ '\n' :: q) = .error e' ∧ e'.kind = e.kind := by
  obtain ⟨rest, hitems, hb⟩ := exists_items_of_sequence hp
  refine ⟨fun ws hq => ?_, fun e hq => ?_⟩
  · obtain ⟨left, hitems', hb'⟩ := exists_items_of_sequence hq
    obtain ⟨left', hall, hskip⟩ := hitems.newline hb hitems'
    rw [Text.skipBlank_eq_nil_iff.mpr hb', Text.skipBlank_eq_nil_iff] at hskip
    exact sequence_of_items hall hskip
  · obtain ⟨ws, left, f, hitems', hf, hb', hkind⟩ := exists_items_of_error hq
    obtain ⟨left', hall, hskip⟩ := hitems.newline hb hitems'
    have hf' : datum maxNesting left' = .error f := by
      rw [maxNesting, ← datum_skipBlank, hskip, datum_skipBlank]
      exact hf
    rw [← Text.skipBlank_eq_nil_iff, ← hskip, Text.skipBlank_eq_nil_iff] at hb'
    rw [hkind]
    exact exists_error_of_items hall hf' hb'

end Reader

end PassingLisp
