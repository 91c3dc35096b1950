import PassingLisp.Proofs.Operations
import PassingLisp.Proofs.Printing

namespace PassingLisp

open Grammar

namespace Value

/-- What equality looks at: the elements of a list and the body of a procedure, but neither a scope
nor what is delayed. -/
inductive PartOf (u : Value) : Value → Prop where
  | here : PartOf u u
  | element {v : Value} {vs : List Value} (hv : v ∈ vs) (h : PartOf u v) : PartOf u (list vs)
  | body {e : Value} {params : List Param} {body : List Value} {env : Env} (he : e ∈ body)
      (h : PartOf u e) : PartOf u (procedure params body env)

def HasParts : Value → Prop
  | list _ | procedure .. => True
  | _ => False

@[elab_as_elim]
theorem induction {P : Value → Prop} (list : ∀ vs, (∀ v ∈ vs, P v) → P (list vs))
    (procedure : ∀ params body env, (∀ e ∈ body, P e) → P (procedure params body env))
    (simple : ∀ v, ¬ v.HasParts → P v) (v : Value) : P v :=
  @Value.rec P (fun vs => ∀ v ∈ vs, P v) (fun n => simple (number n) id)
    (fun name => simple (symbol name) id) (fun text => simple (string text) id)
    (fun b => simple (bool b) id) list (fun name index => simple (builtin name index) id) procedure
    (fun name => simple (form name) id) (fun name env => simple (reference name env) id)
    (fun id' expr env _ => simple (delayed id' expr env) id) (simple eof id) (simple unspecified id)
    (fun _ h => nomatch h) (fun _ _ hv hvs => List.forall_mem_cons.mpr ⟨hv, hvs⟩) v

variable {u v w : Value} {us vs ws : List Value}

theorem eq_or_of_equal (hu : ¬ u.HasParts) (h : u.equal v = true) :
    v = u ∨ (∃ name i j, u = builtin name i ∧ v = builtin name j) ∨
      ∃ id e e' env, u = delayed id e env ∧ v = delayed id e' env := by
  cases u with
  | list | procedure => exact absurd trivial hu
  | builtin => cases v <;> simp_all [equal]
  | delayed => cases v <;> simp_all [equal]
  | unspecified => cases v <;> cases h
  | _ => cases v <;> simp_all [equal]

theorem equalAll_symm (h : ∀ u ∈ us, ∀ v, u.equal v = true → v.equal u = true)
    (huv : equalAll us vs = true) : equalAll vs us = true := by
  induction us generalizing vs with
  | nil =>
      match vs, huv with
      | [], _ => rfl
  | cons u us ih =>
      obtain ⟨hu, hus⟩ := List.forall_mem_cons.mp h
      match vs, huv with
      | v :: vs, huv =>
          simp only [equalAll, Bool.and_eq_true] at huv ⊢
          exact ⟨hu v huv.1, ih hus huv.2⟩

theorem equalAll_trans
    (h : ∀ u ∈ us, ∀ v w, u.equal v = true → v.equal w = true → u.equal w = true)
    (huv : equalAll us vs = true) (hvw : equalAll vs ws = true) : equalAll us ws = true := by
  induction us generalizing vs ws with
  | nil =>
      match vs, huv with
      | [], _ => exact hvw
  | cons u us ih =>
      obtain ⟨hu, hus⟩ := List.forall_mem_cons.mp h
      match vs, ws, huv, hvw with
      | v :: vs, w :: ws, huv, hvw =>
          simp only [equalAll, Bool.and_eq_true] at huv hvw ⊢
          exact ⟨hu v w huv.1 hvw.1, ih hus huv.2 hvw.2⟩

theorem equalAll_self_iff : equalAll vs vs = true ↔ ∀ v ∈ vs, v.equal v = true := by
  induction vs with
  | nil => simp [equalAll]
  | cons v vs ih => simp only [equalAll, Bool.and_eq_true, ih, List.forall_mem_cons]

theorem spellings_eq (h : ∀ u ∈ us, ∀ v, u.equal v = true → u.spelling = v.spelling)
    (huv : equalAll us vs = true) : spellings us = spellings vs := by
  induction us generalizing vs with
  | nil =>
      match vs, huv with
      | [], _ => rfl
  | cons u us ih =>
      obtain ⟨hu, hus⟩ := List.forall_mem_cons.mp h
      match vs, huv with
      | v :: vs, huv =>
          rw [equalAll, Bool.and_eq_true] at huv
          have hhead := hu v huv.1
          have htail := ih hus huv.2
          match us, vs, huv.2 with
          | [], [], _ => exact hhead
          | u' :: us, v' :: vs, _ =>
              change u.spelling ++ ' ' :: spellings (u' :: us) =
                v.spelling ++ ' ' :: spellings (v' :: vs)
              rw [hhead, htail]

theorem equal_symm (h : u.equal v = true) : v.equal u = true := by
  induction u using Value.induction generalizing v with
  | list us ih =>
      match v, h with
      | list vs, h => exact equalAll_symm (fun u hu v => ih u hu) h
  | procedure params body env ih =>
      match v, h with
      | procedure .., h =>
          simp only [equal, Bool.and_eq_true, beq_iff_eq] at h ⊢
          exact ⟨⟨h.1.1.symm, equalAll_symm (fun u hu v => ih u hu) h.1.2⟩, h.2.symm⟩
  | simple u hu =>
      rcases eq_or_of_equal hu h with rfl | ⟨name, i, j, rfl, rfl⟩ | ⟨id, e, e', env, rfl, rfl⟩
      · exact h
      · simp [equal]
      · simp [equal]

theorem equal_trans (huv : u.equal v = true) (hvw : v.equal w = true) : u.equal w = true := by
  induction u using Value.induction generalizing v w with
  | list us ih =>
      match v, w, huv, hvw with
      | list vs, list ws, huv, hvw => exact equalAll_trans (fun u hu v w => ih u hu) huv hvw
  | procedure params body env ih =>
      match v, w, huv, hvw with
      | procedure .., procedure .., huv, hvw =>
          simp only [equal, Bool.and_eq_true, beq_iff_eq] at huv hvw ⊢
          exact ⟨⟨huv.1.1.trans hvw.1.1, equalAll_trans (fun u hu v w => ih u hu) huv.1.2 hvw.1.2⟩,
            huv.2.trans hvw.2⟩
  | simple u hu =>
      rcases eq_or_of_equal hu huv with rfl | ⟨name, i, j, rfl, rfl⟩ | ⟨id, e, e', env, rfl, rfl⟩
      · exact hvw
      · cases w <;> exact hvw
      · cases w <;> exact hvw

theorem partOf_list_iff : u.PartOf (list vs) ↔ u = list vs ∨ ∃ v ∈ vs, u.PartOf v := by
  constructor
  · intro h
    cases h with
    | here => exact .inl rfl
    | element hv h => exact .inr ⟨_, hv, h⟩
  · rintro (rfl | ⟨v, hv, h⟩)
    · exact .here
    · exact .element hv h

theorem partOf_procedure_iff {params : List Param} {env : Env} :
    u.PartOf (procedure params vs env) ↔
      u = procedure params vs env ∨ ∃ e ∈ vs, u.PartOf e := by
  constructor
  · intro h
    cases h with
    | here => exact .inl rfl
    | body he h => exact .inr ⟨_, he, h⟩
  · rintro (rfl | ⟨e, he, h⟩)
    · exact .here
    · exact .body he h

theorem partOf_simple_iff (hv : ¬ v.HasParts) : u.PartOf v ↔ u = v := by
  constructor
  · intro h
    cases h with
    | here => rfl
    | element | body => exact absurd trivial hv
  · rintro rfl
    exact .here

theorem equal_self_iff (v : Value) : v.equal v = true ↔ ¬ unspecified.PartOf v := by
  induction v using Value.induction with
  | list vs ih =>
      simp only [equal, equalAll_self_iff, partOf_list_iff, reduceCtorEq, false_or, not_exists,
        not_and]
      exact forall₂_congr ih
  | procedure params body env ih =>
      simp only [equal, beq_self_eq_true, Bool.true_and, Bool.and_true, equalAll_self_iff,
        partOf_procedure_iff, reduceCtorEq, false_or, not_exists, not_and]
      exact forall₂_congr ih
  | simple v hv =>
      rw [partOf_simple_iff hv]
      cases v with
      | list | procedure => exact absurd trivial hv
      | _ => simp [equal]

theorem spelling_eq_of_equal (h : u.equal v = true) : u.spelling = v.spelling := by
  induction u using Value.induction generalizing v with
  | list us ih =>
      match v, h with
      | list vs, h =>
          have hspellings := spellings_eq (fun u hu v => ih u hu) h
          exact congrArg (fun s => '(' :: (s ++ [')'])) hspellings
  | procedure params body env ih =>
      match v, h with
      | procedure params' .., h =>
          simp only [equal, Bool.and_eq_true, beq_iff_eq] at h
          obtain rfl : params = params' := h.1.1
          rfl
  | simple u hu =>
      rcases eq_or_of_equal hu h with rfl | ⟨name, i, j, rfl, rfl⟩ | ⟨id, e, e', env, rfl, rfl⟩
      all_goals rfl

theorem lt_sizeOf_of_hasListAt {k : Nat} (h : v.HasListAt k) : k < sizeOf v := by
  induction h with
  | here =>
      rw [list.sizeOf_spec]
      omega
  | inside hv _ ih =>
      have hlt := List.sizeOf_lt_of_mem hv
      rw [list.sizeOf_spec]
      omega

end Value

namespace Reader

variable {level : Nat} {u v : Value} {s rest : List Char}

theorem takes_of_atom (h : Atom s v) (level : Nat) : Takes (datum (level + 1)) s v := by
  intro rest hrest
  obtain ⟨c, t, rfl, hc⟩ := head_of_atom h
  rw [datum, List.cons_append, Text.skipBlank_eq_self (isBlank_eq_false_of_head hc)]
  exact datumWith_of_head hc (atom?_of_atom h hrest)

theorem takes_spelling (hv : v.Writable) (h : ∀ k, v.HasListAt k → k < level) :
    Takes (datum (level + 1)) v.spelling v := by
  induction hv generalizing level with
  | number n => exact takes_of_atom (Text.atom_decimal n) level
  | @symbol name hname =>
      have hatom := Atom.symbol (isSymbol_iff.mp hname)
      rw [String.ofList_toList] at hatom
      exact takes_of_atom hatom level
  | string text =>
      intro rest _
      have hspelling : (Value.string text).spelling ++ rest =
          '"' :: (text.toList.flatMap Text.inLiteral ++ '"' :: rest) :=
        congrArg ('"' :: ·) (List.append_assoc ..)
      have hbody := stringBody_of_quoted (Text.quoted_flatMap text.toList) rest
      rw [hspelling, datum, Text.skipBlank_eq_self (by decide)]
      simp only [datumWith, hbody, String.ofList_toList]
  | bool b =>
      cases b with
      | true => exact takes_of_atom .true level
      | false => exact takes_of_atom .false level
  | @list vs _ ih =>
      intro rest _
      obtain ⟨level, rfl⟩ := Nat.exists_eq_add_of_lt (h 0 (.here vs))
      rw [Nat.zero_add] at h ⊢
      have hspelling : (Value.list vs).spelling ++ rest =
          '(' :: (Value.spellings vs ++ ')' :: rest) :=
        congrArg ('(' :: ·) (List.append_assoc ..)
      have hi : ∀ i ∈ Value.spelled vs, Takes (datum (level + 1)) i.1 i.2 := by
        intro i hi
        obtain ⟨v, hv, rfl⟩ := List.mem_map.mp hi
        exact ih v hv fun k hk => Nat.lt_of_succ_lt_succ (h (k + 1) (.inside hv hk))
      have hbody := listBody_of_separated Text.blanks_nil Text.blanks_nil
        (Value.separated_spelled vs) hi rest
      rw [Value.map_snd_spelled] at hbody
      rw [hspelling, datum, Text.skipBlank_eq_self (by decide)]
      exact hbody

theorem eq_of_spelling_eq (hu : u.Writable) (hv : v.Writable) (h : u.spelling = v.spelling) :
    u = v := by
  have hread (w : Value) (hw : w.Writable) (hlt : sizeOf w ≤ sizeOf u + sizeOf v) :
      datum (sizeOf u + sizeOf v + 1) (w.spelling ++ []) = .ok (w, []) :=
    takes_spelling hw (fun k hk => by
      have hdepth := Value.lt_sizeOf_of_hasListAt hk
      omega) boundary_nil
  have hu' := hread u hu (Nat.le_add_right _ _)
  rw [h, hread v hv (Nat.le_add_left _ _)] at hu'
  cases hu'
  rfl

end Reader

namespace Value

theorem Writable.not_partOf {v : Value} (h : v.Writable) : ¬ unspecified.PartOf v := by
  induction h with
  | list _ ih =>
      rw [partOf_list_iff]
      rintro (h | ⟨v, hv, h⟩)
      · cases h
      · exact ih v hv h
  | _ => rintro ⟨⟩

theorem equal_iff_text_eq {u v : Value} (hu : u.Writable) (hv : v.Writable) :
    u.equal v = true ↔ u.text = v.text := by
  constructor
  · intro h
    rw [text, text, spelling_eq_of_equal h]
  · intro h
    obtain rfl := Reader.eq_of_spelling_eq hu hv (String.ofList_injective h)
    exact (equal_self_iff u).mpr hu.not_partOf

end Value

namespace Interpreter

structure TellsApart (i : Interpreter) : Prop where
  answers (u v : Value) : i.Answers "equal?" [u, v] (.ok (.bool (u.equal v)))
  symm {u v : Value} : u.equal v = true → v.equal u = true
  trans {u v w : Value} : u.equal v = true → v.equal w = true → u.equal w = true
  self (v : Value) : v.equal v = true ↔ ¬ Value.unspecified.PartOf v
  written {u v : Value} : u.Writable → v.Writable → (u.equal v = true ↔ u.text = v.text)

theorem tellsApart {i : Interpreter} (h : i.Stocked) : i.TellsApart where
  answers _ _ := h.answers_ok rfl rfl rfl trivial
  symm := Value.equal_symm
  trans := Value.equal_trans
  self := Value.equal_self_iff
  written := Value.equal_iff_text_eq

def unequalToItself : Value :=
  .procedure [] [.list [.unspecified]] .globals

theorem tellsApart_unspecified :
    (CommandLine.session {}).interpreter.Stocked ∧
      (CommandLine.session {}).interpreter.Answers "equal?" [unequalToItself, unequalToItself]
        (.ok (.bool false)) ∧
      (CommandLine.session {}).interpreter.Answers "equal?"
        [.delayed 0 unequalToItself .globals, .delayed 0 unequalToItself .globals]
        (.ok (.bool true)) := by
  have htells := tellsApart (stocked_session {})
  have hpart : Value.unspecified.PartOf unequalToItself :=
    .body (List.mem_singleton_self _) (.element (List.mem_singleton_self _) .here)
  have hunequal : unequalToItself.equal unequalToItself = false :=
    Bool.eq_false_iff.mpr fun h => (htells.self _).mp h hpart
  have hequal := (htells.self (.delayed 0 unequalToItself .globals)).mpr nofun
  refine ⟨stocked_session {}, ?_, ?_⟩
  · rw [← hunequal]
    exact htells.answers _ _
  · rw [← hequal]
    exact htells.answers _ _

end Interpreter

end PassingLisp
