import PassingLisp.Proofs.Comments

namespace PassingLisp

open Grammar

namespace Reader

variable {d level fuel : Nat} {input s q r rest : List Char} {f : Fault} {item : Reader Value}

theorem exists_quoted_of_incomplete (h : stringBody input = .error f)
    (hf : f.cause = .incomplete) : ∃ t, Quoted (input ++ ['\n']) t := by
  fun_induction stringBody input with
  | case1 => exact ⟨['\n'], .plain (by decide) (by decide) .nil⟩
  | case2 => cases h
  | case3 =>
      cases h
      cases hf
  | case4 =>
      cases h
      cases hf
  | case5 => cases h
  | case6 e input d he f' hbody ih =>
      obtain ⟨t, ht⟩ := ih (hbody.trans h)
      exact ⟨d :: t, .escape (escape_iff.mp he) ht⟩
  | case7 => cases h
  | case8 c input hq hlone hpair f' hbody ih =>
      have hb : c ≠ '\\' := by
        rintro rfl
        cases input with
        | nil => exact hlone rfl rfl
        | cons e input => exact hpair e input rfl rfl
      obtain ⟨t, ht⟩ := ih (hbody.trans h)
      exact ⟨c :: t, .plain hq hb ht⟩

theorem exists_separated_of_error (hitem : Sound d item)
    (h : separated item fuel input = .error f) (s : List Char) :
    ∃ (items : List (List Char × Value)) (t rest : List Char), input = t ++ rest ∧
      (item rest = .error f ∧ f.isFinal = true) ∧ (∀ i ∈ items, Sexpr d i.1 i.2) ∧
      ∀ u, Separated (s :: (items.map (·.1) ++ [u])) (s ++ t ++ u) := by
  induction fuel generalizing input s with
  | zero => cases h
  | succ fuel ih =>
      rw [separated] at h
      split at h
      · rename_i hblank
        obtain ⟨b, hb, hne, hinput⟩ := Text.exists_blanks_of_head hblank
        split at h
        · rename_i v rest' hv
          split at h
          · cases h
          · rename_i f' hf
            cases h
            obtain ⟨u, hu, hsexpr⟩ := hitem hv
            obtain ⟨items, t, rest, rfl, hrest, hi, hsep⟩ := ih hf u
            refine ⟨(u, v) :: items, b ++ u ++ t, rest, ?_, hrest,
              List.forall_mem_cons.mpr ⟨hsexpr, hi⟩, fun w => ?_⟩
            · rw [hinput, hu]
              simp only [List.append_assoc]
            · have hcons := Separated.cons (s := s) hb hne (hsep w)
              simpa only [List.append_assoc, List.map_cons, List.cons_append] using hcons
        · rename_i f' hf
          split at h
          · rename_i hfinal
            cases h
            refine ⟨[], b, _, hinput, ⟨hf, hfinal⟩, List.forall_mem_nil _, fun u => ?_⟩
            exact .cons hb hne (.one u)
          · cases h
      · cases h

theorem exists_elements_of_error (hitem : Sound d item) (h : elements item input = .error f) :
    ∃ (items : List (List Char × Value)) (t rest : List Char), input = t ++ rest ∧
      (item rest = .error f ∧ f.isFinal = true) ∧ (∀ i ∈ items, Sexpr d i.1 i.2) ∧
      ∀ u, Separated (items.map (·.1) ++ [u]) (t ++ u) := by
  unfold elements at h
  split at h
  · rename_i v rest' hv
    split at h
    · cases h
    · rename_i f' hf
      cases h
      obtain ⟨u, rfl, hsexpr⟩ := hitem hv
      obtain ⟨items, t, rest, rfl, hrest, hi, hsep⟩ := exists_separated_of_error hitem hf u
      exact ⟨(u, v) :: items, u ++ t, rest, (List.append_assoc ..).symm, hrest,
        List.forall_mem_cons.mpr ⟨hsexpr, hi⟩, hsep⟩
  · rename_i f' hf
    split at h
    · rename_i hfinal
      cases h
      exact ⟨[], [], input, rfl, ⟨hf, hfinal⟩, List.forall_mem_nil _, .one⟩
    · cases h

def Completes (d : Nat) (item : Reader Value) : Prop :=
  ∀ ⦃input f⦄, item input = .error f → f.isFinal = true → f.cause = .incomplete →
    ∃ r v, Sexpr d (input ++ '\n' :: r) v

theorem exists_sexpr_of_listBody (hitem : Sound (d + 1) item) (hc : Completes (d + 1) item)
    (hd : d ≤ 30) (h : listBody item input = .error f) (hf : f.cause = .incomplete) :
    ∃ r v, ∀ b, Blanks b → Sexpr d (b ++ '(' :: (input ++ '\n' :: r)) v := by
  obtain ⟨before, hbefore, hinput⟩ := Text.exists_blanks input
  unfold listBody at h
  split at h
  · rename_i vs rest hvs
    obtain ⟨items, s, hs, rfl, hsep, hi⟩ := exists_elements hitem hvs
    split at h
    · cases h
    · cases h
      have hskip : Text.skipBlank rest = [] := by
        by_contra hne
        simp [Fault.cause, Fault.rest, hne] at hf
      have hafter : Blanks (rest ++ ['\n']) := by
        have hrest := Text.skipBlank_eq_nil_iff.mp hskip
        exact List.forall_mem_append.mpr ⟨hrest, by simp⟩
      refine ⟨[')'], .list (items.map (·.2)), fun b hb => ?_⟩
      have hlist := Sexpr.list hd hb hbefore hafter hsep hi
      rw [hinput, hs]
      simpa only [List.append_assoc, List.singleton_append] using hlist
  · rename_i f' hf'
    cases h
    obtain ⟨items, t, rest, ht, ⟨hrest, hfinal⟩, hi, hsep⟩ := exists_elements_of_error hitem hf'
    obtain ⟨r, v, hv⟩ := hc hrest hfinal hf
    refine ⟨r ++ [')'], .list ((items ++ [(rest ++ '\n' :: r, v)]).map (·.2)), fun b hb => ?_⟩
    have hsep' := hsep (rest ++ '\n' :: r)
    have hi' : ∀ i ∈ items ++ [(rest ++ '\n' :: r, v)], Sexpr (d + 1) i.1 i.2 :=
      List.forall_mem_append.mpr ⟨hi, by simpa using hv⟩
    have hlist := Sexpr.list hd hb hbefore Text.blanks_nil (by simpa using hsep') hi'
    rw [hinput, ht]
    simpa only [List.append_assoc, List.nil_append, List.cons_append] using hlist

theorem not_blanks_of_final (h : datum level input = .error f) (hfinal : f.isFinal = true)
    (hf : f.cause = .incomplete) : ¬ Blanks input := by
  intro hb
  cases level with
  | zero =>
      cases h
      cases hf
  | succ level =>
      rw [datum, Text.skipBlank_eq_nil_iff.mpr hb] at h
      cases h
      cases hfinal

theorem exists_sexpr_of_incomplete (hd : d + level = 32) (h : datum level input = .error f)
    (hne : ¬ Blanks input) (hf : f.cause = .incomplete) :
    ∃ r v, Sexpr d (input ++ '\n' :: r) v := by
  induction level generalizing d input f with
  | zero =>
      cases h
      cases hf
  | succ level ih =>
      have hc : Completes (d + 1) (datum level) := fun _ _ h hfinal hf =>
        ih (by omega) h (not_blanks_of_final h hfinal hf) hf
      have hskip := mt Text.skipBlank_eq_nil_iff.mp hne
      obtain ⟨b, hb, hinput⟩ := Text.exists_blanks input
      rw [datum] at h
      generalize Text.skipBlank input = s at h hinput hskip
      subst hinput
      simp only [List.append_assoc]
      unfold datumWith at h
      split at h
      · rename_i s
        split at h
        · cases h
        · rename_i f' hf'
          split at h
          · rename_i hfinal
            cases h
            have hlevel : level ≠ 0 := by
              rintro rfl
              cases hf'
              cases hf
            obtain ⟨r, v, hv⟩ := hc hf' hfinal hf
            exact ⟨r, _, .quote (by omega) hb hv⟩
          · cases h
            simp [Fault.cause, Fault.rest] at hf
      · rename_i s
        have hlevel : level ≠ 0 := by
          rintro rfl
          rw [listBody_datum_zero] at h
          cases h
          cases hf
        have hd' : d ≤ 30 := by omega
        obtain ⟨r, v, hv⟩ := exists_sexpr_of_listBody (sound_datum (by omega)) hc hd' h hf
        exact ⟨r, v, hv b hb⟩
      · rename_i s
        split at h
        · cases h
        · rename_i f' hf'
          cases h
          obtain ⟨t, ht⟩ := exists_quoted_of_incomplete hf' hf
          have hstring := Sexpr.string (d := d) (by omega) hb ht
          rw [List.append_assoc] at hstring
          exact ⟨['"'], _, hstring⟩
      · split at h
        · cases h
        · cases h
          simp [Fault.cause, Fault.rest, hskip] at hf

theorem exists_items_of_incomplete {vs : List Value} (h : Items s vs rest)
    (hf : datum maxNesting rest = .error f) (hb : ¬ Blanks rest) (hcause : f.cause = .incomplete) :
    ∃ r items, Items (s ++ '\n' :: r) items [] ∧ Comment.Clear (s ++ '\n' :: r) := by
  obtain ⟨r, v, hv⟩ := exists_sexpr_of_incomplete (d := 0) rfl hf hb hcause
  have hlast : Items (rest ++ '\n' :: r) [v] [] := by
    have htakes : Takes (datum maxNesting) (rest ++ '\n' :: r) v := datum_of_sexpr hv rfl
    have hread := htakes boundary_nil
    rw [List.append_nil] at hread
    exact .cons hread (.nil [])
  have hall := (h.append_right (boundary_newline r)).append hlast
  obtain ⟨t, ht, hclear⟩ := Comment.exists_clear_of_items hall
  rw [List.append_nil] at ht
  exact ⟨r, vs ++ [v], hall, ht ▸ hclear⟩

theorem exists_completion (comments : Bool) (q : List Char) (e : ParseError)
    (h : program comments q = .error e) (he : e.kind = .incomplete) :
    ∃ r items, program comments (q ++ '\n' :: r) = .ok items := by
  obtain ⟨vs, rest, f, hitems, hf, hb, hkind⟩ := exists_items_of_error h
  obtain ⟨r, items, hall, hclear⟩ :=
    exists_items_of_incomplete hitems hf hb (hkind.symm.trans he)
  refine ⟨r, items, ?_⟩
  have hread := sequence_of_items hall Text.blanks_nil
  cases comments with
  | false => exact hread
  | true =>
      rw [program, if_pos rfl, Comment.strip_append_newline hclear]
      exact hread

def openText : List Char :=
  "a (b '(\"c\\\" ;".toList

theorem exists_completion_openText :
    (∃ e, program true openText = .error e ∧ e.kind = .incomplete) ∧
    ∃ r items, program true (openText ++ '\n' :: r) = .ok items := by
  have hopen : program true openText =
      .error (Fault.toParseError openText (.unclosed [])) := by rfl
  exact ⟨⟨_, hopen, rfl⟩, exists_completion true openText _ hopen rfl⟩

end Reader

end PassingLisp
