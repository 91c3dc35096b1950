import PassingLisp.Proofs.Completion

namespace PassingLisp

open Grammar ParseError

namespace Reader

variable {d level : Nat} {s input rest : List Char} {f : Fault} {e : ParseError} {v w : Value}
  {vs : List Value}

theorem isFinal_of_listBody {item : Reader Value} (hitem : Sound d item)
    (h : listBody item input = .error f) : f.isFinal = true := by
  unfold listBody at h
  split at h
  · split at h
    · cases h
    · cases h
      rfl
  · rename_i f' hf
    cases h
    obtain ⟨items, t, rest, -, ⟨-, hfinal⟩, -⟩ := exists_elements_of_error hitem hf
    exact hfinal

theorem isFinal_of_stringBody {text : List Char} (h : stringBody text = .error f) :
    f.isFinal = true := by
  fun_induction stringBody text with
  | case1 | case3 | case4 =>
      cases h
      rfl
  | case2 | case5 | case7 => cases h
  | case6 e text d he f' hbody ih => exact ih (hbody.trans h)
  | case8 c text hq hlone hpair f' hbody ih => exact ih (hbody.trans h)

theorem eq_malformed_of_datumWith (hlevel : d + level = 32)
    (h : datumWith (datum level) input = .error f) (hf : f.isFinal = false) :
    f = .malformed input := by
  unfold datumWith at h
  split at h
  · split at h
    · cases h
    · split at h
      · rename_i hfinal
        cases h
        rw [hfinal] at hf
        cases hf
      · cases h
        rfl
  · rw [isFinal_of_listBody (sound_datum hlevel) h] at hf
    cases hf
  · split at h
    · cases h
    · rename_i f' hbody
      cases h
      rw [isFinal_of_stringBody hbody] at hf
      cases hf
  · split at h
    · cases h
    · cases h
      rfl

theorem eq_malformed_of_datum (h : datum maxNesting s = .error f) (hf : f.isFinal = false) :
    f = .malformed (Text.skipBlank s) := by
  rw [maxNesting, datum] at h
  exact eq_malformed_of_datumWith (d := 1) rfl h hf

theorem toParseError_malformed (hne : input ≠ []) (hrest : rest ≠ []) :
    (Fault.malformed rest).toParseError input =
      .withContext .invalidSyntax (Fault.nearMessage rest) input
        (Text.byteLength input - Text.byteLength rest) := by
  have hend : (Fault.malformed rest).atEnd input = false := by
    rw [Fault.atEnd_eq hne, decide_eq_false_iff_not]
    exact hrest
  have hkind : (Fault.malformed rest).kind input = .invalidSyntax := by
    simp only [Fault.kind, hend, Bool.false_eq_true, if_false]
  have hmessage : (Fault.malformed rest).message input = Fault.nearMessage rest :=
    if_neg (by rw [hend]; exact Bool.false_ne_true)
  rw [Fault.toParseError, hkind, hmessage, Fault.position, Fault.rest]

theorem leftover_malformed (hne : input ≠ []) (hrest : rest ≠ [])
    (h : datum maxNesting rest = .error (.malformed rest)) :
    leftover input rest = (Fault.malformed rest).toParseError input := by
  rw [toParseError_malformed hne hrest]
  simp only [leftover, h, toParseError_malformed hrest hrest, kind_withContext,
    message_withContext, reduceCtorEq, if_false]

theorem sequence_of_stop (hitems : Items s vs rest) (hb : ¬ Blanks rest)
    (h : datum maxNesting rest = .error f) : sequence s = .error (f.toParseError s) := by
  have hskip : Text.skipBlank rest ≠ [] := mt Text.skipBlank_eq_nil_iff.mp hb
  rw [sequence, hitems.many_eq h (Nat.lt_succ_self _)]
  cases hf : f.isFinal with
  | true => rfl
  | false =>
      obtain rfl := eq_malformed_of_datum h hf
      have hread : datum maxNesting (Text.skipBlank rest) =
          .error (.malformed (Text.skipBlank rest)) := by
        rw [maxNesting, datum_skipBlank]
        exact h
      rw [← leftover_malformed (hitems.ne_nil_of_not_blanks hb) hskip hread]
      obtain ⟨c, left, hleft⟩ := List.exists_cons_of_ne_nil hskip
      simp only [Bool.false_eq_true, if_false, hleft]

theorem sequence_of_fault (hb : ¬ Blanks s) (h : datum maxNesting s = .error f) :
    sequence s = .error (f.toParseError s) :=
  sequence_of_stop (.nil s) hb h

theorem one_of_fault (h : datum maxNesting s = .error f) : one s = .error (f.toParseError s) := by
  rw [one, h]

theorem exists_one_of_rest (h : datum maxNesting s = .ok (v, rest)) (hb : ¬ Blanks rest) :
    ∃ e, one s = .error e ∧ e.kind = .trailingContent := by
  have hskip : Text.skipBlank rest ≠ [] := mt Text.skipBlank_eq_nil_iff.mp hb
  obtain ⟨c, left, hleft⟩ := List.exists_cons_of_ne_nil hskip
  simp only [one, h, hleft]
  exact ⟨_, rfl, rfl⟩

theorem one_of_blank_rest (h : datum maxNesting s = .ok (v, rest)) (hb : Blanks rest) :
    one s = .ok v := by
  rw [one, h]
  simp only [Text.skipBlank_eq_nil_iff.mpr hb]

theorem one_eq_ok_iff_items : one s = .ok v ↔ ∃ rest, Items s [v] rest ∧ Blanks rest := by
  constructor
  · intro h
    cases hread : datum maxNesting s with
    | error f =>
        rw [one_of_fault hread] at h
        cases h
    | ok found =>
        obtain ⟨u, rest⟩ := found
        by_cases hb : Blanks rest
        · rw [one_of_blank_rest hread hb] at h
          cases h
          exact ⟨rest, .cons hread (.nil rest), hb⟩
        · obtain ⟨e, he, -⟩ := exists_one_of_rest hread hb
          rw [he] at h
          cases h
  · rintro ⟨rest, hitems, hb⟩
    cases hitems with
    | cons hread hnil =>
        cases hnil
        exact one_of_blank_rest hread hb

theorem sequence_eq_ok_iff_items : sequence s = .ok vs ↔ ∃ rest, Items s vs rest ∧ Blanks rest :=
  ⟨exists_items_of_sequence, fun ⟨_, hitems, hb⟩ => sequence_of_items hitems hb⟩

theorem one_of_items (h : Items s (v :: w :: vs) rest) :
    ∃ e, one s = .error e ∧ e.kind = .trailingContent := by
  cases h with
  | cons hread h =>
      cases h with
      | cons hread' _ =>
          refine exists_one_of_rest hread fun hb => ?_
          rw [datum_of_blanks hb] at hread'
          cases hread'

theorem sequence_of_one (hb : ¬ Blanks s) (h : one s = .error e) (he : e.kind ≠ .trailingContent) :
    sequence s = .error e := by
  cases hread : datum maxNesting s with
  | error f =>
      rw [one_of_fault hread] at h
      cases h
      exact sequence_of_fault hb hread
  | ok found =>
      obtain ⟨v, rest⟩ := found
      by_cases hblank : Blanks rest
      · rw [one_of_blank_rest hread hblank] at h
        cases h
      · obtain ⟨e', he', hkind⟩ := exists_one_of_rest hread hblank
        rw [he'] at h
        cases h
        exact absurd hkind he

theorem Fault.cause_ne_trailingContent (f : Fault) : f.cause ≠ .trailingContent := by
  cases f with
  | tooDeep rest => simp [cause]
  | _ =>
      simp only [cause]
      split <;> simp

theorem exists_fault_of_many {left : List Char}
    (h : many (datum maxNesting) (s.length + 1) s = .ok (vs, left)) :
    ∃ f, datum maxNesting (Text.skipBlank left) = .error f := by
  obtain ⟨ws, rest, f, hitems, hf⟩ := exists_items s
  rw [hitems.many_eq hf (Nat.lt_succ_self _)] at h
  split at h
  · cases h
  · cases h
    exact ⟨f, by rw [maxNesting, datum_skipBlank]; exact hf⟩

theorem one_agrees_with_program (s : List Char) :
    (∀ v, one s = .ok v ↔ program false s = .ok [v]) ∧
      (∀ v w vs, program false s = .ok (v :: w :: vs) →
        ∃ e, one s = .error e ∧ e.kind = .trailingContent) ∧
      (∀ e, ¬ Blanks s → one s = .error e → e.kind ≠ .trailingContent →
        program false s = .error e) ∧
      (∀ comments e, program comments s = .error e → e.kind ≠ .trailingContent) ∧
      ∀ vs rest, many (datum maxNesting) (s.length + 1) s = .ok (vs, rest) →
        ∃ f, datum maxNesting (Text.skipBlank rest) = .error f := by
  refine ⟨fun v => ?_, fun v w vs h => ?_, fun e => sequence_of_one, fun comments e h => ?_,
    fun vs rest => exists_fault_of_many⟩
  · exact one_eq_ok_iff_items.trans sequence_eq_ok_iff_items.symm
  · obtain ⟨rest, hitems, -⟩ := exists_items_of_sequence h
    exact one_of_items hitems
  · obtain ⟨vs, rest, f, -, -, -, hkind⟩ := exists_items_of_error h
    rw [hkind]
    exact f.cause_ne_trailingContent

theorem one_agrees_with_program_unquoted :
    ¬ Blanks " ') x".toList ∧ ∃ e, one " ') x".toList = .error e ∧ e.kind = .invalidSyntax ∧
      program false " ') x".toList = .error e := by
  have hb : ¬ Blanks " ') x".toList := by
    rw [← Text.skipBlank_eq_nil_iff]
    decide
  obtain ⟨-, -, hsame, -⟩ := one_agrees_with_program " ') x".toList
  have hread : datum maxNesting " ') x".toList = .error (.malformed "') x".toList) := by rfl
  have hone := one_of_fault hread
  have hcause : (Fault.malformed "') x".toList).kind " ') x".toList = .invalidSyntax :=
    (Fault.kind_eq_cause (by decide) _).trans (by rfl)
  have hkind : ((Fault.malformed "') x".toList).toParseError " ') x".toList).kind = .invalidSyntax :=
    hcause
  exact ⟨hb, _, hone, hkind, hsame _ hb hone (by rw [hkind]; decide)⟩

end Reader

end PassingLisp
