import PassingLisp.Proofs.Tokens
import PassingLisp.Reader.Program

namespace PassingLisp

open Grammar

namespace Text

variable {c : Char} {b s : List Char}

theorem isBlank_iff : isBlank c = true ↔ c = ' ' ∨ c = '\t' ∨ c = '\r' ∨ c = '\n' := by
  simp [isBlank, or_assoc]

theorem blanks_iff : Blanks b ↔ ∀ c ∈ b, isBlank c = true := by
  simp only [Blanks, isBlank_iff]

theorem blanks_nil : Blanks [] := by
  intro c hc
  cases hc

theorem skipBlank_append (hb : Blanks b) (s : List Char) : skipBlank (b ++ s) = skipBlank s :=
  List.dropWhile_append_of_pos (blanks_iff.mp hb)

theorem exists_blanks (s : List Char) : ∃ b, Blanks b ∧ s = b ++ skipBlank s :=
  ⟨s.takeWhile isBlank, blanks_iff.mpr fun _ hc => List.mem_takeWhile_imp hc, by simp [skipBlank]⟩

theorem exists_blanks_of_head (h : s.head?.any isBlank = true) :
    ∃ b, Blanks b ∧ b ≠ [] ∧ s = b ++ skipBlank s := by
  cases s with
  | nil => cases h
  | cons c s =>
      have hc : isBlank c = true := h
      obtain ⟨b, hb, hs⟩ := exists_blanks s
      refine ⟨c :: b, blanks_iff.mpr ?_, by simp, ?_⟩
      · exact List.forall_mem_cons.mpr ⟨hc, blanks_iff.mp hb⟩
      · rw [skipBlank_cons, hc, if_pos rfl, List.cons_append, ← hs]

theorem skipBlank_skipBlank (s : List Char) : skipBlank (skipBlank s) = skipBlank s := by
  obtain ⟨b, hb, hs⟩ := exists_blanks s
  rw [← skipBlank_append hb, ← hs]

theorem skipBlank_eq_self (h : isBlank c = false) (s : List Char) :
    skipBlank (c :: s) = c :: s := by
  rw [skipBlank_cons, h]
  rfl

theorem skipBlank_eq_nil_iff : skipBlank s = [] ↔ Blanks s := by
  rw [blanks_iff, skipBlank, List.dropWhile_eq_nil_iff]

end Text

namespace Reader

variable {d level : Nat} {s t input rest : List Char} {c : Char} {v : Value} {vs : List Value}

theorem datum_skipBlank (level : Nat) (input : List Char) :
    datum (level + 1) (Text.skipBlank input) = datum (level + 1) input := by
  simp only [datum, Text.skipBlank_skipBlank]

theorem datum_close (level : Nat) (rest : List Char) :
    datum (level + 1) (')' :: rest) = .error (.malformed (')' :: rest)) := by
  rfl

def Sound (d : Nat) (item : Reader Value) : Prop :=
  ∀ ⦃input v rest⦄, item input = .ok (v, rest) → ∃ s, input = s ++ rest ∧ Sexpr d s v

theorem exists_separated {item : Reader Value} (hitem : Sound d item) {fuel : Nat}
    (h : separated item fuel input = .ok (vs, rest)) (s : List Char) :
    ∃ (items : List (List Char × Value)) (t : List Char), input = t ++ rest ∧
      items.map (·.2) = vs ∧ Separated (s :: items.map (·.1)) (s ++ t) ∧
      ∀ i ∈ items, Sexpr d i.1 i.2 := by
  have hnone : Separated [s] (s ++ []) := (List.append_nil s).symm ▸ .one s
  induction fuel generalizing input vs s with
  | zero =>
      cases h
      exact ⟨[], [], rfl, rfl, hnone, fun _ hi => nomatch hi⟩
  | succ fuel ih =>
      rw [separated] at h
      split at h
      · rename_i hblank
        split at h
        · rename_i v' rest' hv
          split at h
          · rename_i vs' rest'' hvs
            cases h
            obtain ⟨u, hu, hsexpr⟩ := hitem hv
            obtain ⟨b, hb, hne, hinput⟩ := Text.exists_blanks_of_head hblank
            obtain ⟨items, t, rfl, rfl, hsep, hi⟩ := ih hvs u ((List.append_nil u).symm ▸ .one u)
            refine ⟨(u, v') :: items, b ++ (u ++ t), ?_, rfl, ?_, ?_⟩
            · rw [hinput, hu]
              simp only [List.append_assoc]
            · rw [← List.append_assoc]
              exact .cons hb hne hsep
            · exact List.forall_mem_cons.mpr ⟨hsexpr, hi⟩
          · cases h
        · split at h
          · cases h
          · cases h
            exact ⟨[], [], rfl, rfl, hnone, fun _ hi => nomatch hi⟩
      · cases h
        exact ⟨[], [], rfl, rfl, hnone, fun _ hi => nomatch hi⟩

theorem exists_elements {item : Reader Value} (hitem : Sound d item)
    (h : elements item input = .ok (vs, rest)) :
    ∃ (items : List (List Char × Value)) (s : List Char), input = s ++ rest ∧
      items.map (·.2) = vs ∧ Separated (items.map (·.1)) s ∧ ∀ i ∈ items, Sexpr d i.1 i.2 := by
  unfold elements at h
  split at h
  · rename_i v rest' hv
    split at h
    · rename_i vs' rest'' hvs
      cases h
      obtain ⟨u, hu, hsexpr⟩ := hitem hv
      obtain ⟨items, t, rfl, rfl, hsep, hi⟩ := exists_separated hitem hvs u
      refine ⟨(u, v) :: items, u ++ t, ?_, rfl, hsep, List.forall_mem_cons.mpr ⟨hsexpr, hi⟩⟩
      rw [hu, List.append_assoc]
    · cases h
  · split at h
    · cases h
    · cases h
      exact ⟨[], [], rfl, rfl, .nil, fun _ hi => nomatch hi⟩

theorem exists_list_of_listBody {item : Reader Value} (hitem : Sound d item)
    (h : listBody item input = .ok (v, rest)) :
    ∃ (before s after : List Char) (items : List (List Char × Value)),
      input = before ++ (s ++ (after ++ ')' :: rest)) ∧ v = .list (items.map (·.2)) ∧
        Blanks before ∧ Blanks after ∧ Separated (items.map (·.1)) s ∧
        ∀ i ∈ items, Sexpr d i.1 i.2 := by
  unfold listBody at h
  split at h
  · rename_i vs rest' hvs
    obtain ⟨items, s, hs, rfl, hsep, hi⟩ := exists_elements hitem hvs
    obtain ⟨before, hbefore, hinput⟩ := Text.exists_blanks input
    obtain ⟨after, hafter, hrest⟩ := Text.exists_blanks rest'
    split at h
    · rename_i rest'' hclose
      cases h
      refine ⟨before, s, after, items, ?_, rfl, hbefore, hafter, hsep, hi⟩
      rw [hinput, hs, hrest, hclose]
    · cases h
  · cases h

theorem sexpr_of_listBody {item : Reader Value} (hitem : Sound (d + 1) item) (hd : d ≤ 30)
    (h : listBody item input = .ok (v, rest)) :
    ∃ s, '(' :: input = s ++ rest ∧ ∀ b, Blanks b → Sexpr d (b ++ s) v := by
  obtain ⟨before, s, after, items, rfl, rfl, hbefore, hafter, hs, hi⟩ :=
    exists_list_of_listBody hitem h
  refine ⟨'(' :: (before ++ s ++ after ++ [')']), by simp, fun b hb => ?_⟩
  exact .list hd hb hbefore hafter hs hi

theorem listBody_datum_zero (input : List Char) :
    listBody (datum 0) input = .error (.tooDeep (Text.skipBlank input)) := by
  rfl

theorem sexpr_of_datumWith (hd : d + level = 31) (hitem : Sound (d + 1) (datum level))
    (h : datumWith (datum level) input = .ok (v, rest)) :
    ∃ s, input = s ++ rest ∧ ∀ b, Blanks b → Sexpr d (b ++ s) v := by
  unfold datumWith at h
  split at h
  · rename_i input
    split at h
    · rename_i v' rest' hv
      cases h
      obtain ⟨s, rfl, hs⟩ := hitem hv
      have hlevel : level ≠ 0 := by
        rintro rfl
        cases hv
      exact ⟨'\'' :: s, rfl, fun b hb => .quote (by omega) hb hs⟩
    · split at h <;> cases h
  · have hlevel : level ≠ 0 := by
      rintro rfl
      rw [listBody_datum_zero] at h
      cases h
    have hd' : d ≤ 30 := by omega
    exact sexpr_of_listBody hitem hd' h
  · rename_i input
    split at h
    · rename_i t rest' hbody
      cases h
      obtain ⟨s, rfl, hs⟩ := exists_quoted_of_stringBody hbody
      exact ⟨'"' :: (s ++ ['"']), by simp, fun b hb => .string (by omega) hb hs⟩
    · cases h
  · split at h
    · rename_i found hatom
      cases h
      obtain ⟨s, rfl, hs⟩ := exists_atom_of_atom? hatom
      exact ⟨s, rfl, fun b hb => .atom (by omega) hb hs⟩
    · cases h

theorem sound_datum (hd : d + level = 32) : Sound d (datum level) := by
  induction level generalizing d with
  | zero =>
      intro input v rest h
      cases h
  | succ level ih =>
      intro input v rest h
      have hd' : d + level = 31 := by omega
      obtain ⟨s, hs, hsexpr⟩ := sexpr_of_datumWith hd' (ih (by omega)) h
      obtain ⟨b, hb, hinput⟩ := Text.exists_blanks input
      exact ⟨b ++ s, by rw [hinput, hs, List.append_assoc], hsexpr b hb⟩

theorem boundary_append {b : List Char} (hb : Blanks b) (hrest : b = [] → Boundary rest) :
    Boundary (b ++ rest) := by
  cases b with
  | nil => exact hrest rfl
  | cons c b =>
      intro c' hc'
      cases hc'
      exact .inl (Text.blanks_iff.mp hb c (by simp))

theorem boundary_nil : Boundary [] := by
  intro c hc
  cases hc

theorem boundary_of_blanks {b : List Char} (hb : Blanks b) : Boundary b := by
  rw [← List.append_nil b]
  exact boundary_append hb fun _ => boundary_nil

theorem boundary_close {after : List Char} (hafter : Blanks after) (rest : List Char) :
    Boundary (after ++ ')' :: rest) := by
  refine boundary_append hafter fun _ => ?_
  intro c hc
  cases hc
  exact .inr rfl

theorem skipBlank_close {after : List Char} (hafter : Blanks after) (rest : List Char) :
    Text.skipBlank (after ++ ')' :: rest) = ')' :: rest :=
  Text.skipBlank_append hafter _

def Takes (item : Reader Value) (s : List Char) (v : Value) : Prop :=
  ∀ ⦃rest⦄, Boundary rest → item (s ++ rest) = .ok (v, rest)

theorem separated_close {after : List Char} (hafter : Blanks after) (level fuel : Nat)
    (rest : List Char) :
    separated (datum (level + 1)) fuel (after ++ ')' :: rest) = .ok ([], after ++ ')' :: rest) := by
  cases fuel with
  | zero => rfl
  | succ fuel =>
      rw [separated, skipBlank_close hafter, datum_close]
      split <;> rfl

theorem separated_blanks {b : List Char} (hb : Blanks b) (hne : b ≠ []) (level fuel : Nat)
    (input : List Char) :
    separated (datum (level + 1)) (fuel + 1) (b ++ input) =
      match datum (level + 1) input with
      | .ok (v, rest) =>
          match separated (datum (level + 1)) fuel rest with
          | .ok (vs, rest) => .ok (v :: vs, rest)
          | .error f => .error f
      | .error f => if f.isFinal then .error f else .ok ([], b ++ input) := by
  obtain ⟨c, b, rfl⟩ := List.exists_cons_of_ne_nil hne
  have hblank : (c :: b ++ input).head?.any Text.isBlank = true :=
    Text.blanks_iff.mp hb c (by simp)
  have hitem : datum (level + 1) (Text.skipBlank (c :: b ++ input)) = datum (level + 1) input := by
    rw [Text.skipBlank_append hb, datum_skipBlank]
  rw [separated, if_pos hblank]
  exact hitem ▸ rfl

theorem boundary_of_separated {ss : List (List Char)} (h : Separated (s :: ss) t)
    (hrest : Boundary rest) : ∃ u, t = s ++ u ∧ Boundary (u ++ rest) := by
  cases h with
  | one => exact ⟨[], (List.append_nil s).symm, hrest⟩
  | @cons _ _ b t _ hb hne _ =>
      refine ⟨b ++ t, List.append_assoc .., ?_⟩
      rw [List.append_assoc]
      exact boundary_append hb fun h => absurd h hne

theorem separated_of_separated {after : List Char} {items : List (List Char × Value)}
    (hafter : Blanks after) (hs : Separated (s :: items.map (·.1)) (s ++ t))
    (hi : ∀ i ∈ items, Takes (datum (level + 1)) i.1 i.2) (rest : List Char) {fuel : Nat}
    (hfuel : (t ++ (after ++ ')' :: rest)).length ≤ fuel) :
    separated (datum (level + 1)) fuel (t ++ (after ++ ')' :: rest)) =
      .ok (items.map (·.2), after ++ ')' :: rest) := by
  induction items generalizing s t fuel with
  | nil =>
      generalize hw : s ++ t = w at hs
      cases hs
      obtain rfl := List.append_right_eq_self.mp hw
      exact separated_close hafter level fuel rest
  | cons i items ih =>
      generalize hw : s ++ t = w at hs
      cases hs with
      | @cons _ _ b t' _ hb hne hs =>
          rw [List.append_assoc] at hw
          obtain rfl := List.append_cancel_left hw
          obtain ⟨hi, his⟩ := List.forall_mem_cons.mp hi
          obtain ⟨u, rfl, hu⟩ := boundary_of_separated hs (boundary_close hafter rest)
          cases fuel with
          | zero => simp at hfuel
          | succ fuel =>
              have hb' := List.length_pos_iff.mpr hne
              simp only [List.length_append, List.length_cons] at hfuel ih
              have hrun := ih hs his (show _ ≤ fuel by omega)
              rw [List.append_assoc, separated_blanks hb hne, List.append_assoc, hi hu]
              simp only [hrun, List.map_cons]

theorem listBody_of_separated {before after : List Char} {items : List (List Char × Value)}
    (hbefore : Blanks before) (hafter : Blanks after) (hs : Separated (items.map (·.1)) s)
    (hi : ∀ i ∈ items, Takes (datum (level + 1)) i.1 i.2) (rest : List Char) :
    listBody (datum (level + 1)) (before ++ (s ++ (after ++ ')' :: rest))) =
      .ok (.list (items.map (·.2)), rest) := by
  cases items with
  | nil =>
      cases hs
      simp only [listBody, Text.skipBlank_append hbefore, List.nil_append,
        skipBlank_close hafter, elements, datum_close, Fault.isFinal]
      rfl
  | cons i items =>
      obtain ⟨hi, his⟩ := List.forall_mem_cons.mp hi
      obtain ⟨u, rfl, hu⟩ := boundary_of_separated hs (boundary_close hafter rest)
      have hread := hi hu
      have hrun := separated_of_separated hafter hs his rest le_rfl
      simp only [listBody, elements, Text.skipBlank_append hbefore, datum_skipBlank,
        List.append_assoc, hread, hrun, skipBlank_close hafter, List.map_cons]

theorem isBlank_eq_false_of_head (h : isSymbolChar c = true ∨ c = '#') :
    Text.isBlank c = false := by
  rcases h with h | rfl
  · rw [← Bool.not_eq_true]
    intro hblank
    rw [(not_symbolChar_of_boundary (.inl hblank)).1] at h
    cases h
  · rfl

theorem datumWith_of_ne {item : Reader Value} (hquote : c ≠ '\'') (hopen : c ≠ '(')
    (hstring : c ≠ '"') :
    datumWith item (c :: t) = (atom? (c :: t)).elim (.error (.malformed (c :: t))) .ok := by
  unfold datumWith
  split
  · rename_i heq
    cases heq
    exact absurd rfl hquote
  · rename_i heq
    cases heq
    exact absurd rfl hopen
  · rename_i heq
    cases heq
    exact absurd rfl hstring
  · cases atom? (c :: t) <;> rfl

theorem datumWith_of_head {item : Reader Value} (h : isSymbolChar c = true ∨ c = '#')
    (found : atom? (c :: t) = some (v, rest)) : datumWith item (c :: t) = .ok (v, rest) := by
  have hne (c' : Char) (h₁ : isSymbolChar c' = false) (h₂ : '#' ≠ c') : c ≠ c' := by
    rcases h with h | rfl
    · exact ne_of_isSymbolChar h h₁
    · exact h₂
  have hquote : c ≠ '\'' := hne _ (by decide) (by decide)
  have hopen : c ≠ '(' := hne _ (by decide) (by decide)
  have hstring : c ≠ '"' := hne _ (by decide) (by decide)
  rw [datumWith_of_ne hquote hopen hstring, found]
  rfl

theorem datum_of_sexpr (h : Sexpr d s v) (hd : d + level = 32) : Takes (datum level) s v := by
  intro rest hrest
  induction h generalizing level rest with
  | @atom d b s v hd' hb h =>
      obtain ⟨level, rfl⟩ := Nat.exists_eq_add_of_le' (show 1 ≤ level by omega)
      obtain ⟨c, t, rfl, hc⟩ := head_of_atom h
      rw [List.append_assoc, datum, Text.skipBlank_append hb, List.cons_append,
        Text.skipBlank_eq_self (isBlank_eq_false_of_head hc)]
      exact datumWith_of_head hc (atom?_of_atom h hrest)
  | @string d b s t hd' hb h =>
      obtain ⟨level, rfl⟩ := Nat.exists_eq_add_of_le' (show 1 ≤ level by omega)
      rw [List.append_assoc, datum, Text.skipBlank_append hb, List.cons_append,
        Text.skipBlank_eq_self (by decide), List.append_assoc]
      simp only [datumWith, List.singleton_append, stringBody_of_quoted h]
  | @quote d b s v hd' hb _ ih =>
      obtain ⟨level, rfl⟩ := Nat.exists_eq_add_of_le' (show 1 ≤ level by omega)
      rw [List.append_assoc, datum, Text.skipBlank_append hb, List.cons_append,
        Text.skipBlank_eq_self (by decide)]
      simp only [datumWith, ih (show d + 1 + level = 32 by omega) hrest]
  | @list d b before s after items hd' hb hbefore hafter hs _ ih =>
      obtain ⟨level, rfl⟩ := Nat.exists_eq_add_of_le' (show 2 ≤ level by omega)
      rw [List.append_assoc, datum, Text.skipBlank_append hb, List.cons_append,
        Text.skipBlank_eq_self (by decide)]
      have hi (i : List Char × Value) (hmem : i ∈ items) : Takes (datum (level + 1)) i.1 i.2 :=
        ih i hmem (by omega)
      simp only [datumWith, List.append_assoc, List.singleton_append]
      exact listBody_of_separated hbefore hafter hs hi rest

theorem expression_of_one (h : one s = .ok v) : Expression s v := by
  unfold one at h
  split at h
  · cases h
  · rename_i v' rest hdatum
    split at h
    · rename_i hskip
      cases h
      obtain ⟨t, rfl, ht⟩ := sound_datum (d := 0) rfl hdatum
      exact ⟨t, rest, rfl, ht, Text.skipBlank_eq_nil_iff.mp hskip⟩
    · cases h

theorem one_of_expression (h : Expression s v) : one s = .ok v := by
  obtain ⟨t, b, rfl, ht, hb⟩ := h
  have hdatum : datum maxNesting (t ++ b) = .ok (v, b) :=
    datum_of_sexpr ht rfl (boundary_of_blanks hb)
  simp only [one, hdatum, Text.skipBlank_eq_nil_iff.mpr hb]

theorem one_eq_ok_iff_expression (s : List Char) :
    (∀ v, one s = .ok v ↔ Expression s v) ∧
      ∀ v w, Expression s v → Expression s w → v = w := by
  refine ⟨fun v => ⟨expression_of_one, one_of_expression⟩, fun v w hv hw => ?_⟩
  have hvw := (one_of_expression hv).symm.trans (one_of_expression hw)
  exact Except.ok.inj hvw

theorem expression_quoted :
    Expression "'x ".toList (.list [.symbol "quote", .symbol "x"]) ∧
      ∀ w, Expression "'x ".toList w → w = .list [.symbol "quote", .symbol "x"] := by
  obtain ⟨hiff, hunique⟩ := one_eq_ok_iff_expression "'x ".toList
  have hquoted := (hiff (.list [.symbol "quote", .symbol "x"])).mp (by rfl)
  exact ⟨hquoted, fun w hw => hunique _ _ hw hquoted⟩

end Reader

end PassingLisp
