import PassingLisp.Proofs.Reading

namespace PassingLisp

open Grammar

namespace Text

theorem skipBlank_append_of_ne_nil {s : List Char} (h : skipBlank s ≠ []) (t : List Char) :
    skipBlank (s ++ t) = skipBlank s ++ t := by
  induction s with
  | nil => exact absurd rfl h
  | cons c s ih =>
      rw [List.cons_append, skipBlank_cons, skipBlank_cons]
      rw [skipBlank_cons] at h
      cases hc : isBlank c with
      | true =>
          rw [hc, if_pos rfl] at h
          exact ih h
      | false => rfl

end Text

namespace Reader

variable {d level : Nat} {s t u input rest : List Char} {v : Value}

def followed (t : List Char) (found : Value × List Char) : Value × List Char :=
  (found.1, found.2 ++ t)

theorem takeWhile_append_of_head {p : Char → Bool} (ht : ∀ c, t.head? = some c → p c = false)
    (s : List Char) :
    (s ++ t).takeWhile p = s.takeWhile p ∧ (s ++ t).dropWhile p = s.dropWhile p ++ t := by
  induction s with
  | nil => exact takeWhile_append (by simp) ht
  | cons c s ih =>
      cases hc : p c with
      | true =>
          simp only [List.cons_append, List.takeWhile_cons, List.dropWhile_cons, hc, if_true, ih,
            and_self]
      | false => simp [hc]

theorem numeral?_append {base : Nat} {p : Char → Bool} {sign : Int → Int}
    (ht : ∀ c, t.head? = some c → p c = false) (s : List Char) :
    numeral? base p sign (s ++ t) = (numeral? base p sign s).map (followed t) := by
  obtain ⟨htake, hdrop⟩ := takeWhile_append_of_head ht s
  unfold numeral?
  rw [htake, hdrop]
  split
  · rfl
  · simp only [Option.map_map]
    rfl

theorem bool?_eq (x : Char) (input : List Char) :
    bool? ('#' :: x :: input) =
      if x = 't' then some (.bool true, input)
      else if x = 'f' then some (.bool false, input) else none := by
  split
  · rename_i hx
    subst hx
    rfl
  · rename_i ht
    split
    · rename_i hx
      subst hx
      rfl
    · rename_i hf
      simp [bool?, ht, hf]

section

variable (ht : Boundary t)

include ht

theorem head?_append_ne {c : Char} (hc : isSymbolChar c = true ∨ c = '#')
    (hs : s.head? ≠ some c) : (s ++ t).head? ≠ some c := by
  cases s with
  | cons c' s => exact hs
  | nil =>
      intro h
      have hboundary := ht c h
      rcases hc with hc | rfl
      · rw [(not_symbolChar_of_boundary hboundary).1] at hc
        cases hc
      · exact absurd hboundary (by decide)

theorem decimal?_append (s : List Char) :
    decimal? (s ++ t) = (decimal? s).map (followed t) := by
  have hdigit (c : Char) (hc : t.head? = some c) := (not_symbolChar_of_boundary (ht c hc)).2.2
  by_cases hs : s.head? = some '-'
  · obtain ⟨body, rfl⟩ := List.head?_eq_some_iff.mp hs
    rw [List.cons_append, decimal?_minus, decimal?_minus]
    exact numeral?_append hdigit body
  · have hst := head?_append_ne ht (.inl (by decide)) hs
    rw [decimal?_of_head?_ne hs, decimal?_of_head?_ne hst]
    exact numeral?_append hdigit s

theorem eq_none_of_lone_sharp : hexadecimal? ('#' :: t) = none ∧ bool? ('#' :: t) = none := by
  cases t with
  | nil => exact ⟨rfl, rfl⟩
  | cons x t =>
      have hne (c : Char) (hc : isSymbolChar c = true) : x ≠ c := by
        rintro rfl
        exact head?_append_ne ht (s := []) (.inl hc) (by simp) rfl
      have hx : ¬ (x = 'x' ∨ x = 'X') := fun h => h.elim (hne _ (by decide)) (hne _ (by decide))
      rw [hexadecimal?_eq, if_neg hx, bool?_eq, if_neg (hne _ (by decide)),
        if_neg (hne _ (by decide))]
      exact ⟨rfl, rfl⟩

theorem hexadecimal?_append (s : List Char) :
    hexadecimal? (s ++ t) = (hexadecimal? s).map (followed t) := by
  have hdigit (c : Char) (hc : t.head? = some c) := (not_symbolChar_of_boundary (ht c hc)).2.1
  by_cases hs : s.head? = some '#'
  · obtain ⟨body, rfl⟩ := List.head?_eq_some_iff.mp hs
    cases body with
    | nil => exact (eq_none_of_lone_sharp ht).1
    | cons x body =>
        rw [List.cons_append, List.cons_append, hexadecimal?_eq, hexadecimal?_eq]
        split
        · exact numeral?_append hdigit body
        · rfl
  · rw [hexadecimal?_eq_none hs, hexadecimal?_eq_none (head?_append_ne ht (.inr rfl) hs)]
    rfl

theorem bool?_append (s : List Char) : bool? (s ++ t) = (bool? s).map (followed t) := by
  by_cases hs : s.head? = some '#'
  · obtain ⟨body, rfl⟩ := List.head?_eq_some_iff.mp hs
    cases body with
    | nil => exact (eq_none_of_lone_sharp ht).2
    | cons x body =>
        rw [List.cons_append, List.cons_append, bool?_eq, bool?_eq]
        split
        · rfl
        · split <;> rfl
  · rw [bool?_eq_none hs, bool?_eq_none (head?_append_ne ht (.inr rfl) hs)]
    rfl

theorem symbol?_append (s : List Char) :
    symbol? (s ++ t) = (symbol? s).map (followed t) := by
  obtain ⟨htake, hdrop⟩ := takeWhile_append_of_head
    (fun c hc => (not_symbolChar_of_boundary (ht c hc)).1) s
  unfold symbol?
  rw [htake, hdrop]
  dsimp only
  split
  · rfl
  · rfl

theorem atom?_append (s : List Char) : atom? (s ++ t) = (atom? s).map (followed t) := by
  unfold atom?
  rw [hexadecimal?_append ht, decimal?_append ht, bool?_append ht, symbol?_append ht]
  cases hexadecimal? s with
  | some found => rfl
  | none =>
      cases decimal? s with
      | some found => rfl
      | none => cases bool? s <;> rfl

end

theorem stringBody_append (h : stringBody input = .ok (u, rest)) (t : List Char) :
    stringBody (input ++ t) = .ok (u, rest ++ t) := by
  obtain ⟨s, rfl, hs⟩ := exists_quoted_of_stringBody h
  rw [List.append_assoc, List.cons_append]
  exact stringBody_of_quoted hs (rest ++ t)

theorem listBody_append (hd : d + (level + 1) = 32)
    (h : listBody (datum level) input = .ok (v, rest)) (t : List Char) :
    listBody (datum level) (input ++ t) = .ok (v, rest ++ t) := by
  obtain ⟨before, s, after, items, rfl, rfl, hbefore, hafter, hs, hi⟩ :=
    exists_list_of_listBody (sound_datum (d := d + 1) (by omega)) h
  cases level with
  | zero => cases h
  | succ level =>
      have htakes (i : List Char × Value) (hmem : i ∈ items) :
          Takes (datum (level + 1)) i.1 i.2 := datum_of_sexpr (hi i hmem) (by omega)
      have hbody := listBody_of_separated hbefore hafter hs htakes (rest ++ t)
      simpa only [List.append_assoc, List.cons_append] using hbody

theorem datum_append (ht : Boundary t) (hd : d + level = 32)
    (h : datum level input = .ok (v, rest)) :
    datum level (input ++ t) = .ok (v, rest ++ t) := by
  induction level generalizing d input v rest with
  | zero => cases h
  | succ level ih =>
      rw [datum] at h ⊢
      generalize hs : Text.skipBlank input = s at h
      have hne : s ≠ [] := by
        rintro rfl
        cases h
      rw [Text.skipBlank_append_of_ne_nil (hs ▸ hne), hs]
      unfold datumWith at h
      split at h
      · rename_i s
        split at h
        · rename_i v' rest' hv
          cases h
          simp only [List.cons_append, datumWith, ih (d := d + 1) (by omega) hv]
        · split at h <;> cases h
      · exact listBody_append hd h t
      · rename_i s
        split at h
        · rename_i u rest' hbody
          cases h
          simp only [List.cons_append, datumWith, stringBody_append hbody t]
        · cases h
      · split at h
        · rename_i found hatom
          cases h
          obtain ⟨a, rfl, ha⟩ := exists_atom_of_atom? hatom
          obtain ⟨c, a, rfl, hc⟩ := head_of_atom ha
          have hfound := atom?_append ht (c :: a ++ rest)
          rw [hatom] at hfound
          exact datumWith_of_head hc hfound
        · cases h

end Reader

end PassingLisp
