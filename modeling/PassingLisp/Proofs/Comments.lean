import PassingLisp.Proofs.Items

namespace PassingLisp

open Grammar

namespace Reader.Comment

variable {place : Place} {c : Char} {p s t : List Char} {v : Value} {vs : List Value} {d : Nat}

def after (place : Place) (s : List Char) : Place :=
  s.foldl next place

theorem after_cons (place : Place) (c : Char) (s : List Char) :
    after place (c :: s) = after (next place c) s := rfl

theorem after_append (place : Place) (s t : List Char) :
    after place (s ++ t) = after (after place s) t :=
  List.foldl_append

theorem stripFrom_append (place : Place) (s t : List Char) :
    stripFrom place (s ++ t) = stripFrom place s ++ stripFrom (after place s) t := by
  induction s generalizing place with
  | nil => rfl
  | cons c s ih =>
      rw [List.cons_append, after_cons, stripFrom, stripFrom, ih]
      split <;> rfl

theorem stripFrom_sublist (place : Place) (s : List Char) : (stripFrom place s).Sublist s := by
  induction s generalizing place with
  | nil => exact .slnil
  | cons c s ih =>
      rw [stripFrom]
      split
      · exact .cons c (ih _)
      · exact .cons_cons c (ih _)

def Place.outside : Place → Place
  | .comment => .code
  | place => place

theorem next_outside (h : next place c ≠ .comment) :
    next place.outside c = next place c := by
  cases place with
  | comment =>
      by_cases hc : c = '\n'
      · subst hc
        rfl
      · simp [next] at h
  | _ => rfl

theorem outside_of_next_comment (h : next place c = .comment) : place.outside = .code := by
  cases place with
  | code | comment => rfl
  | string =>
      unfold next at h
      split at h <;> simp_all
  | escape => cases h

theorem after_stripFrom (place : Place) (s : List Char) :
    after place.outside (stripFrom place s) = (after place s).outside := by
  induction s generalizing place with
  | nil => rfl
  | cons c s ih =>
      have ih := ih (next place c)
      rw [stripFrom, after_cons]
      split
      · rename_i h
        rw [h] at ih ⊢
        rw [outside_of_next_comment h]
        exact ih
      · rename_i h
        have hself : (next place c).outside = next place c := by
          generalize next place c = q at h
          cases q with
          | comment => exact absurd rfl h
          | _ => rfl
        rw [after_cons, next_outside h, ← ih, hself]

theorem stripFrom_newline (place : Place) (s : List Char) :
    stripFrom place ('\n' :: s) = stripFrom place.outside ('\n' :: s) := by
  cases place <;> rfl

structure Clear (s : List Char) : Prop where
  strip_eq : strip s = s
  after_eq : after .code s = .code

namespace Clear

theorem nil : Clear [] := ⟨rfl, rfl⟩

theorem strip_append (h : Clear s) (t : List Char) : strip (s ++ t) = s ++ strip t := by
  rw [strip, stripFrom_append, h.after_eq]
  exact congrArg (· ++ strip t) h.strip_eq

theorem after_append (h : Clear s) (t : List Char) : after .code (s ++ t) = after .code t := by
  rw [Comment.after_append, h.after_eq]

theorem append (h : Clear s) (h' : Clear t) : Clear (s ++ t) where
  strip_eq := by rw [h.strip_append, h'.strip_eq]
  after_eq := by rw [h.after_append, h'.after_eq]

theorem cons (hc : c ≠ ';') (hq : c ≠ '"') (h : Clear s) : Clear (c :: s) := by
  have hnext : next .code c = .code := by simp [next]
  refine ⟨?_, ?_⟩
  · have hstrip := h.strip_eq
    unfold strip at hstrip ⊢
    rw [stripFrom, hnext, hstrip]
    rfl
  · rw [after_cons, hnext]
    exact h.after_eq

theorem of_chars (h : ∀ c ∈ s, c ≠ ';' ∧ c ≠ '"') : Clear s := by
  induction s with
  | nil => exact nil
  | cons c s ih =>
      obtain ⟨hc, hs⟩ := List.forall_mem_cons.mp h
      exact (ih hs).cons hc.1 hc.2

theorem of_blanks (h : Blanks s) : Clear s := by
  refine of_chars fun c hc => ?_
  rcases h c hc with rfl | rfl | rfl | rfl <;> decide

theorem of_atom (h : Atom s v) : Clear s := by
  refine of_chars fun c hc => ?_
  rcases symbolChar_of_atom h c hc with hc | rfl
  · exact ⟨ne_of_isSymbolChar hc (by decide), ne_of_isSymbolChar hc (by decide)⟩
  · decide

theorem stripFrom_quoted (h : Quoted s t) :
    stripFrom .string s = s ∧ after .string s = .string := by
  induction h with
  | nil => exact ⟨rfl, rfl⟩
  | @plain c s t hq hb _ ih =>
      have hnext : next .string c = .string := by simp [next]
      rw [stripFrom, after_cons, hnext]
      exact ⟨congrArg (c :: ·) ih.1, ih.2⟩
  | @escape e c s t _ _ ih =>
      have hstrip : stripFrom .string ('\\' :: e :: s) = '\\' :: e :: stripFrom .string s := rfl
      exact ⟨by rw [hstrip, ih.1], ih.2⟩

theorem of_quoted (h : Quoted s t) : Clear ('"' :: (s ++ ['"'])) := by
  obtain ⟨hstrip, hafter⟩ := stripFrom_quoted h
  refine ⟨?_, ?_⟩
  · have hopen : strip ('"' :: (s ++ ['"'])) = '"' :: stripFrom .string (s ++ ['"']) := rfl
    rw [hopen, stripFrom_append, hstrip, hafter]
    rfl
  · have hopen : after .code ('"' :: (s ++ ['"'])) = after .string (s ++ ['"']) := rfl
    rw [hopen, Comment.after_append, hafter]
    rfl

theorem of_separated {ss : List (List Char)} (h : Separated ss s) (hss : ∀ s ∈ ss, Clear s) :
    Clear s := by
  induction h with
  | nil => exact nil
  | one s => exact hss s (by simp)
  | cons hb _ _ ih =>
      obtain ⟨hs, hss⟩ := List.forall_mem_cons.mp hss
      exact (hs.append (of_blanks hb)).append (ih hss)

theorem of_sexpr (h : Sexpr d s v) : Clear s := by
  induction h with
  | atom _ hb h => exact (of_blanks hb).append (of_atom h)
  | string _ hb h => exact (of_blanks hb).append (of_quoted h)
  | quote _ hb _ ih => exact (of_blanks hb).append (ih.cons (by decide) (by decide))
  | @list d b before s after items _ hb hbefore hafter hs _ ih =>
      have hitems (u : List Char) (hu : u ∈ items.map (·.1)) : Clear u := by
        obtain ⟨i, hi, rfl⟩ := List.mem_map.mp hu
        exact ih i hi
      have hclose : Clear [')'] := nil.cons (by decide) (by decide)
      have hfront := (of_blanks hbefore).append (of_separated hs hitems)
      have hinside := (hfront.append (of_blanks hafter)).append hclose
      exact (of_blanks hb).append (hinside.cons (by decide) (by decide))

end Clear

theorem exists_clear_of_items {rest : List Char} (h : Items s vs rest) :
    ∃ t, s = t ++ rest ∧ Clear t := by
  induction h with
  | nil s => exact ⟨[], rfl, .nil⟩
  | cons hv _ ih =>
      obtain ⟨t, rfl, ht⟩ := ih
      obtain ⟨u, rfl, hu⟩ := sound_datum (d := 0) rfl hv
      exact ⟨u ++ t, (List.append_assoc ..).symm, (Clear.of_sexpr hu).append ht⟩

theorem strip_seam (p q : List Char) :
    strip (p ++ '\n' :: q) = strip p ++ stripFrom (after .code (strip p)) ('\n' :: q) := by
  have hplace : after .code (strip p) = (after .code p).outside := after_stripFrom .code p
  rw [strip, stripFrom_append, stripFrom_newline, hplace]
  rfl

theorem strip_newline (h : after .code (strip p) = .code) (q : List Char) :
    strip (p ++ '\n' :: q) = strip p ++ '\n' :: strip q := by
  rw [strip_seam, h]
  rfl

theorem strip_append_newline {q : List Char} (h : Clear (strip p ++ '\n' :: q)) :
    strip (p ++ '\n' :: q) = strip p ++ '\n' :: q := by
  have hparts : strip (strip p) ++ stripFrom (after .code (strip p)) ('\n' :: q) =
      strip p ++ '\n' :: q := (stripFrom_append ..).symm.trans h.strip_eq
  have hfirst : (strip (strip p)).length ≤ (strip p).length :=
    (stripFrom_sublist .code (strip p)).length_le
  have hsecond := (stripFrom_sublist (after .code (strip p)) ('\n' :: q)).length_le
  have hlength := congrArg List.length hparts
  simp only [List.length_append] at hlength
  rw [strip_seam, (List.append_inj' hparts (by omega)).2]

end Reader.Comment

namespace Reader

theorem program_newline (comments : Bool) (p q : List Char) (a : List Value)
    (hp : program comments p = .ok a) :
    (∀ b, program comments q = .ok b → program comments (p ++ '\n' :: q) = .ok (a ++ b)) ∧
      ∀ e, program comments q = .error e →
        ∃ e', program comments (p ++ '\n' :: q) = .error e' ∧ e'.kind = e.kind := by
  cases comments with
  | false => exact sequence_newline hp q
  | true =>
      have hp' : sequence (Comment.strip p) = .ok a := hp
      obtain ⟨rest, hitems, hb⟩ := exists_items_of_sequence hp'
      obtain ⟨t, ht, hclear⟩ := Comment.exists_clear_of_items hitems
      have hafter : Comment.after .code (Comment.strip p) = .code := by
        rw [ht]
        exact (hclear.append (.of_blanks hb)).after_eq
      have hprogram (s : List Char) : program true s = sequence (Comment.strip s) := rfl
      simp only [hprogram, Comment.strip_newline hafter]
      exact sequence_newline hp' _

theorem program_newline_remark :
    program true "\";\" ; (\"".toList = .ok [.string ";"] ∧
      program true ("\";\" ; (\"".toList ++ '\n' :: "b;)".toList) =
        .ok [.string ";", .symbol "b"] ∧
      ∃ e, program true ("\";\" ; (\"".toList ++ '\n' :: "(c \";".toList) = .error e ∧
        e.kind = .incomplete := by
  have hp : program true "\";\" ; (\"".toList = .ok [.string ";"] := by rfl
  have hb : program true "b;)".toList = .ok [.symbol "b"] := by rfl
  have hc : program true "(c \";".toList =
      .error (Fault.toParseError "(c \";".toList (.unclosed [])) := by rfl
  have hseam := program_newline true "\";\" ; (\"".toList
  exact ⟨hp, (hseam "b;)".toList _ hp).1 _ hb, (hseam "(c \";".toList _ hp).2 _ hc⟩

end Reader

end PassingLisp
