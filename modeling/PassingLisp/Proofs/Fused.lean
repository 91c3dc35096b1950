import PassingLisp.Proofs.Comments

namespace PassingLisp

open Grammar

namespace Grammar

def Bare (s : List Char) : Prop :=
  ∀ c ∈ s, Text.isBlank c = false ∧ c ∉ ['(', ')', '\'', '"', ';']

instance (s : List Char) : Decidable (Bare s) :=
  List.decidableBAll _ s

inductive Fused : List Char → List Value → Prop where
  | nil : Fused [] []
  | cons {s t : List Char} {v : Value} {vs : List Value} (h : Leads s v t) (ht : Fused t vs) :
      Fused (s ++ t) (v :: vs)

end Grammar

namespace Reader

variable {s t rest : List Char} {v w : Value} {vs : List Value}

theorem bare_append_iff : Bare (s ++ t) ↔ Bare s ∧ Bare t :=
  List.forall_mem_append

theorem eq_nil_of_bare (hs : Bare s) (hb : Blanks s) : s = [] := by
  apply List.eq_nil_iff_forall_not_mem.mpr
  intro c hc
  have hblank := Text.blanks_iff.mp hb c hc
  rw [(hs c hc).1] at hblank
  cases hblank

theorem program_of_bare (comments : Bool) (hs : Bare s) : program comments s = sequence s := by
  cases comments with
  | false => rfl
  | true =>
      have hclear : Comment.Clear s := by
        apply Comment.Clear.of_chars
        intro c hc
        have hmarks := (hs c hc).2
        simp only [List.mem_cons, not_or] at hmarks
        exact ⟨hmarks.2.2.2.2.1, hmarks.2.2.2.1⟩
      rw [program, if_pos rfl, hclear.strip_eq]

theorem datum_of_bare (hs : Bare s) :
    datum maxNesting s = (atom? s).elim (.error (.malformed s)) .ok := by
  cases s with
  | nil => rfl
  | cons c s =>
      obtain ⟨hblank, hmarks⟩ := hs c List.mem_cons_self
      simp only [List.mem_cons, not_or] at hmarks
      obtain ⟨hopen, -, hquote, hstring, -⟩ := hmarks
      rw [maxNesting, datum, Text.skipBlank_eq_self hblank, datumWith_of_ne hquote hopen hstring]

theorem datum_eq_ok_iff (hs : Bare s) : datum maxNesting s = .ok (v, rest) ↔
    ∃ a, s = a ++ rest ∧ Leads a v rest := by
  rw [datum_of_bare hs]
  constructor
  · intro h
    cases hatom : atom? s with
    | none =>
        rw [hatom] at h
        cases h
    | some found =>
        rw [hatom] at h
        cases h
        exact exists_leads_of_atom? hatom
  · rintro ⟨a, rfl, h⟩
    rw [atom?_of_leads h]
    rfl

theorem Items.fused (hs : Bare s) (h : Items s vs []) : Fused s vs := by
  generalize hrest : [] = rest at h
  induction h with
  | nil s =>
      subst hrest
      exact .nil
  | cons hv _ ih =>
      obtain ⟨a, rfl, ha⟩ := (datum_eq_ok_iff hs).mp hv
      exact .cons ha (ih (bare_append_iff.mp hs).2 hrest)

theorem items_of_fused (hs : Bare s) (h : Fused s vs) : Items s vs [] := by
  induction h with
  | nil => exact .nil []
  | cons h _ ih =>
      apply Items.cons ((datum_eq_ok_iff hs).mpr ⟨_, rfl, h⟩)
      exact ih (bare_append_iff.mp hs).2

theorem program_eq_ok_iff_fused (comments : Bool) (hs : Bare s) :
    program comments s = .ok vs ↔ Fused s vs := by
  rw [program_of_bare comments hs]
  constructor
  · intro h
    obtain ⟨rest, hitems, hb⟩ := exists_items_of_sequence h
    obtain ⟨u, rfl⟩ := hitems.suffix
    obtain rfl := eq_nil_of_bare (bare_append_iff.mp hs).2 hb
    exact hitems.fused hs
  · intro h
    exact sequence_of_items (items_of_fused hs h) Text.blanks_nil

theorem one_of_leads (hs : Bare (s ++ t)) (h : Leads s v t) (hne : t ≠ []) :
    ∃ e, one (s ++ t) = .error e ∧ e.kind = .trailingContent := by
  have hread := (datum_eq_ok_iff hs).mpr ⟨s, rfl, h⟩
  have hskip : Text.skipBlank t ≠ [] := fun hskip =>
    hne (eq_nil_of_bare (bare_append_iff.mp hs).2 (Text.skipBlank_eq_nil_iff.mp hskip))
  obtain ⟨c, u, hu⟩ := List.exists_cons_of_ne_nil hskip
  simp only [one, hread, hu]
  exact ⟨_, rfl, rfl⟩

theorem one_eq_ok_iff_fused (hs : Bare s) : one s = .ok v ↔ Fused s [v] := by
  constructor
  · intro h
    cases hread : datum maxNesting s with
    | error f =>
        rw [one, hread] at h
        cases h
    | ok found =>
        obtain ⟨w, rest⟩ := found
        obtain ⟨a, rfl, ha⟩ := (datum_eq_ok_iff hs).mp hread
        by_cases hrest : rest = []
        · subst hrest
          rw [one, hread] at h
          cases h
          exact .cons ha .nil
        · obtain ⟨e, he, -⟩ := one_of_leads hs ha hrest
          rw [he] at h
          cases h
  · intro h
    cases h with
    | cons h ht =>
        cases ht with
        | nil =>
            have hread := (datum_eq_ok_iff hs).mpr ⟨_, rfl, h⟩
            rw [one, hread]
            rfl

theorem ne_nil_of_fused (h : Fused s (v :: vs)) : s ≠ [] := by
  cases h with
  | cons h _ =>
      obtain ⟨c, a, rfl, -⟩ := head_of_atom h.atom
      simp

theorem program_of_one_token (comments : Bool) (s : List Char) (hne : s ≠ []) (hs : Bare s) :
    (∀ v, one s = .ok v ↔ program comments s = .ok [v]) ∧
      (((∃ vs, program comments s = .ok vs) ↔ ∃ v, one s = .ok v) ↔
        ¬ ∃ v w vs, Fused s (v :: w :: vs)) ∧
      ∀ v w vs, Fused s (v :: w :: vs) → program comments s = .ok (v :: w :: vs) ∧
        ∃ e, one s = .error e ∧ e.kind = .trailingContent := by
  have hone (v : Value) : one s = .ok v ↔ Fused s [v] := one_eq_ok_iff_fused hs
  have hprogram (vs : List Value) : program comments s = .ok vs ↔ Fused s vs :=
    program_eq_ok_iff_fused comments hs
  have hmany (v w : Value) (vs : List Value) (h : Fused s (v :: w :: vs)) :
      ∃ e, one s = .error e ∧ e.kind = .trailingContent := by
    cases h with
    | cons h ht => exact one_of_leads hs h (ne_nil_of_fused ht)
  refine ⟨fun v => (hone v).trans (hprogram [v]).symm, ⟨?_, ?_⟩,
    fun v w vs h => ⟨(hprogram _).mpr h, hmany v w vs h⟩⟩
  · rintro hagree ⟨v, w, vs, h⟩
    obtain ⟨u, hu⟩ := hagree.mp ⟨_, (hprogram _).mpr h⟩
    obtain ⟨e, he, -⟩ := hmany v w vs h
    rw [he] at hu
    cases hu
  · intro hsingle
    constructor
    · rintro ⟨vs, h⟩
      match vs, (hprogram vs).mp h with
      | [], hfused =>
          cases hfused
          exact absurd rfl hne
      | [v], hfused => exact ⟨v, (hone v).mpr hfused⟩
      | v :: w :: vs, hfused => exact absurd ⟨v, w, vs, hfused⟩ hsingle
    · rintro ⟨v, h⟩
      exact ⟨[v], (hprogram [v]).mpr ((hone v).mp h)⟩

theorem program_of_one_token_arrow :
    ("a->b1".toList ≠ [] ∧ Bare "a->b1".toList) ∧
      program true "a->b1".toList = .ok [.symbol "a->b1"] ∧
      ¬ ∃ v w vs, Fused "a->b1".toList (v :: w :: vs) := by
  have hne : "a->b1".toList ≠ [] := by decide
  have hs : Bare "a->b1".toList := by decide
  have hone : one "a->b1".toList = .ok (.symbol "a->b1") := by rfl
  obtain ⟨hsame, hagree, -⟩ := program_of_one_token true _ hne hs
  have hprogram := (hsame _).mp hone
  exact ⟨⟨hne, hs⟩, hprogram, hagree.mp ⟨fun _ => ⟨_, hone⟩, fun _ => ⟨_, hprogram⟩⟩⟩

theorem program_digits_letters :
    ("123abc".toList ≠ [] ∧ Bare "123abc".toList) ∧
      program false "123abc".toList = .ok [.number 123, .symbol "abc"] ∧
      ¬ ∃ v, one "123abc".toList = .ok v := by
  have hs : Bare "123abc".toList := by decide
  refine ⟨⟨by decide, hs⟩, by rfl, ?_⟩
  rintro ⟨v, hv⟩
  have herror : ∃ e, one "123abc".toList = .error e := ⟨_, rfl⟩
  obtain ⟨e, he⟩ := herror
  rw [he] at hv
  cases hv

end Reader

end PassingLisp
