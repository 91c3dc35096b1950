import PassingLisp.Proofs.Agreement

namespace PassingLisp

open Grammar ParseError

namespace Reader

variable {α : Type} {item : Reader Value} {s : List Char} {f : Fault} {e : ParseError}

def left : Except Fault (α × List Char) → List Char
  | .ok (_, rest) => rest
  | .error f => f.rest

def Advances (item : Reader α) : Prop :=
  ∀ s, left (item s) <:+ s

def stop (r : Except Fault (α × List Char)) : List Char :=
  match r with
  | .ok (_, rest) => Text.skipBlank rest
  | .error f => f.rest

theorem suffix_skipBlank (s : List Char) : Text.skipBlank s <:+ s :=
  List.dropWhile_suffix _

theorem stop_suffix_left (r : Except Fault (α × List Char)) : stop r <:+ left r := by
  cases r with
  | ok found => exact suffix_skipBlank found.2
  | error f => exact List.suffix_rfl

theorem left_otherwise {r : Except Fault (α × List Char)} (hf : f.rest <:+ s) (hr : left r <:+ s) :
    left (if f.isFinal then .error f else r) <:+ s := by
  split
  · exact hf
  · exact hr

theorem advances_stringBody : Advances stringBody := by
  intro s
  fun_induction stringBody s with
  | case1 => exact List.suffix_rfl
  | case2 rest => exact List.suffix_cons _ rest
  | case3 => exact List.suffix_rfl
  | case4 c rest he => exact List.suffix_rfl
  | case5 c rest d he text rest' hbody ih =>
      rw [hbody] at ih
      exact ih.trans (List.suffix_append ['\\', c] rest)
  | case6 c rest d he f hbody ih =>
      rw [hbody] at ih
      exact ih.trans (List.suffix_append ['\\', c] rest)
  | case7 c rest hq hlone hpair text rest' hbody ih =>
      rw [hbody] at ih
      exact ih.trans (List.suffix_cons c rest)
  | case8 c rest hq hlone hpair f hbody ih =>
      rw [hbody] at ih
      exact ih.trans (List.suffix_cons c rest)

section

variable (h : Advances item)

include h

theorem advances_separated (fuel : Nat) : Advances (separated item fuel) := by
  intro s
  induction fuel generalizing s with
  | zero => exact List.suffix_rfl
  | succ fuel ih =>
      have hitem := (h (Text.skipBlank s)).trans (suffix_skipBlank s)
      rw [separated]
      split
      · split
        · rename_i v rest hv
          rw [hv] at hitem
          have hrest := (ih rest).trans hitem
          split <;> rename_i hvs <;> rw [hvs] at hrest <;> exact hrest
        · rename_i f hf
          rw [hf] at hitem
          exact left_otherwise hitem List.suffix_rfl
      · exact List.suffix_rfl

theorem advances_elements : Advances (elements item) := by
  intro s
  have hitem := h s
  unfold elements
  split
  · rename_i v rest hv
    rw [hv] at hitem
    have hrest := (advances_separated h rest.length rest).trans hitem
    split <;> rename_i hvs <;> rw [hvs] at hrest <;> exact hrest
  · rename_i f hf
    rw [hf] at hitem
    exact left_otherwise hitem List.suffix_rfl

theorem advances_listBody : Advances (listBody item) := by
  intro s
  have hitems := (advances_elements h (Text.skipBlank s)).trans (suffix_skipBlank s)
  unfold listBody
  split
  · rename_i vs rest hvs
    rw [hvs] at hitems
    have hskip := (suffix_skipBlank rest).trans hitems
    split
    · rename_i rest' hclose
      rw [hclose] at hskip
      exact (List.suffix_cons ')' rest').trans hskip
    · exact hskip
  · rename_i f hf
    rw [hf] at hitems
    exact hitems

theorem advances_datumWith : Advances (datumWith item) := by
  intro s
  unfold datumWith
  split
  · rename_i rest
    have hitem := (h rest).trans (List.suffix_cons '\'' rest)
    split
    · rename_i v rest' hv
      rw [hv] at hitem
      exact hitem
    · rename_i f hf
      rw [hf] at hitem
      exact left_otherwise hitem List.suffix_rfl
  · rename_i rest
    exact (advances_listBody h rest).trans (List.suffix_cons '(' rest)
  · rename_i rest
    have hbody := (advances_stringBody rest).trans (List.suffix_cons '"' rest)
    split <;> rename_i htext <;> rw [htext] at hbody <;> exact hbody
  · split
    · rename_i found hatom
      obtain ⟨u, hu, -⟩ := exists_atom_of_atom? hatom
      exact ⟨u, hu.symm⟩
    · exact List.suffix_rfl

theorem advances_many (fuel : Nat) : Advances (many item fuel) := by
  intro s
  induction fuel generalizing s with
  | zero => exact List.suffix_rfl
  | succ fuel ih =>
      have hitem := h s
      rw [many]
      split
      · rename_i v rest hv
        rw [hv] at hitem
        have hrest := (ih rest).trans hitem
        split <;> rename_i hvs <;> rw [hvs] at hrest <;> exact hrest
      · rename_i f hf
        rw [hf] at hitem
        exact left_otherwise hitem List.suffix_rfl

end

theorem advances_datum (level : Nat) : Advances (datum level) := by
  induction level with
  | zero => exact fun _ => List.suffix_rfl
  | succ level ih =>
      intro s
      exact (advances_datumWith ih (Text.skipBlank s)).trans (suffix_skipBlank s)

theorem context_toParseError (input : List Char) (f : Fault) :
    (f.toParseError input).context = some (String.ofList
      (excerpt input (Text.byteLength input - Text.byteLength f.rest))) := rfl

theorem context_of_one (h : one s = .error e) :
    e.context = some (String.ofList (excerpt s
      (Text.byteLength s - Text.byteLength (stop (datum maxNesting s))))) := by
  unfold one at h
  split at h
  · rename_i f hf
    cases h
    rw [hf]
    exact context_toParseError s f
  · rename_i v rest hv
    split at h
    · cases h
    · cases h
      rw [hv]
      rfl

theorem stop_many {vs : List Value} {rest : List Char} (hitems : Items s vs rest)
    (hf : datum maxNesting rest = .error f) :
    stop (many (datum maxNesting) (s.length + 1) s) = f.rest := by
  rw [hitems.many_eq hf (Nat.lt_succ_self _)]
  cases hfinal : f.isFinal with
  | true => rfl
  | false =>
      rw [eq_malformed_of_datum hf hfinal]
      rfl

theorem context_of_sequence (h : sequence s = .error e) :
    e.context = some (String.ofList (excerpt s (Text.byteLength s -
      Text.byteLength (stop (many (datum maxNesting) (s.length + 1) s))))) := by
  obtain ⟨vs, rest, f, hitems, hf⟩ := exists_items s
  by_cases hb : Blanks rest
  · rw [sequence_of_items hitems hb] at h
    cases h
  · rw [sequence_of_stop hitems hb hf] at h
    cases h
    rw [stop_many hitems hf]
    exact context_toParseError s f

theorem exists_lead {r : Except Fault (α × List Char)} (hr : left r <:+ s)
    (he : e.context = some (String.ofList
      (excerpt s (Text.byteLength s - Text.byteLength (stop r))))) :
    ∃ lead, s = lead ++ stop r ∧
      e.context = some (String.ofList (excerpt s (Text.byteLength lead))) := by
  obtain ⟨lead, hlead⟩ := (stop_suffix_left r).trans hr
  have hbytes : Text.byteLength s - Text.byteLength (stop r) = Text.byteLength lead := by
    rw [← hlead, Text.byteLength_append]
    omega
  exact ⟨lead, hlead.symm, hbytes ▸ he⟩

theorem exists_lead_of_one (h : one s = .error e) :
    ∃ lead, s = lead ++ stop (datum maxNesting s) ∧
      e.context = some (String.ofList (excerpt s (Text.byteLength lead))) :=
  exists_lead (advances_datum maxNesting s) (context_of_one h)

theorem exists_lead_of_sequence (h : sequence s = .error e) :
    ∃ lead, s = lead ++ stop (many (datum maxNesting) (s.length + 1) s) ∧
      e.context = some (String.ofList (excerpt s (Text.byteLength lead))) :=
  exists_lead (advances_many (advances_datum maxNesting) _ s) (context_of_sequence h)

end Reader

end PassingLisp
