import PassingLisp.Proofs.Reading
import PassingLisp.Value.Printer

namespace PassingLisp

open Grammar

namespace Value

inductive Writable : Value → Prop where
  | number (n : Int64) : Writable (.number n)
  | symbol {name : String} (h : Reader.isSymbol name.toList = true) : Writable (.symbol name)
  | string (text : String) : Writable (.string text)
  | bool (b : Bool) : Writable (.bool b)
  | list {elements : List Value} (h : ∀ v ∈ elements, v.Writable) : Writable (.list elements)

inductive HasListAt : Nat → Value → Prop where
  | here (elements : List Value) : HasListAt 0 (.list elements)
  | inside {k : Nat} {v : Value} {elements : List Value} (hv : v ∈ elements) (h : HasListAt k v) :
      HasListAt (k + 1) (.list elements)

end Value

namespace Text

theorem numeral_toDigits (n : Nat) : Numeral 10 (Nat.toDigits 10 n) n := by
  induction n using Nat.strongRecOn with
  | ind n ih =>
      have hlower (k : Nat) (hk : k < 10) : k.digitChar.toLower = k.digitChar := by
        revert k
        decide
      by_cases hn : n < 10
      · rw [Nat.toDigits_of_lt_base hn]
        exact .digit hn (hlower n hn)
      · have hten : 10 ≤ n := by omega
        have hdiv : Numeral 10 (Nat.toDigits 10 (n / 10)) (n / 10) := ih _ (by omega)
        have hmod : n % 10 < 10 := by omega
        have hsnoc := hdiv.snoc hmod (hlower _ hmod)
        rw [Nat.toDigits_of_base_le (by decide) hten]
        rwa [show n / 10 * 10 + n % 10 = n by omega] at hsnoc

theorem atom_decimal (n : Int64) : Atom (decimal n.toInt) (.number n) := by
  unfold decimal
  split
  · exact .negative (numeral_toDigits _) (by omega)
  · exact .decimal (numeral_toDigits _) (by omega)

theorem quoted_inLiteral (c : Char) {s t : List Char} (h : Quoted s t) :
    Quoted (inLiteral c ++ s) (c :: t) := by
  unfold inLiteral
  split
  · exact .escape .quote h
  · exact .escape .backslash h
  · exact .escape .newline h
  · exact .escape .tab h
  · exact .escape .return h
  · rename_i hquote hbackslash _ _ _
    exact .plain hquote hbackslash h

theorem quoted_flatMap (t : List Char) : Quoted (t.flatMap inLiteral) t := by
  induction t with
  | nil => exact .nil
  | cons c t ih =>
      rw [List.flatMap_cons]
      exact quoted_inLiteral c ih

end Text

namespace Value

variable {d k level : Nat} {v : Value} {vs : List Value} {s rest : List Char}

def spelled (vs : List Value) : List (List Char × Value) :=
  vs.map fun v => (v.spelling, v)

theorem map_snd_spelled (vs : List Value) : (spelled vs).map (·.2) = vs := by
  rw [spelled, List.map_map]
  exact List.map_id vs

theorem separated_spelled (vs : List Value) :
    Separated ((spelled vs).map (·.1)) (spellings vs) := by
  induction vs with
  | nil => exact .nil
  | cons v vs ih =>
      cases vs with
      | nil => exact .one _
      | cons w vs =>
          have hblank : Blanks [' '] := by simp [Blanks]
          have hcons := Separated.cons (s := v.spelling) hblank (by simp) ih
          rwa [List.append_assoc] at hcons

theorem sexpr_of_writable (hv : v.Writable) (hd : d ≤ 31)
    (h : ∀ k, v.HasListAt k → d + k ≤ 30) : Sexpr d v.spelling v := by
  induction hv generalizing d with
  | number n => exact .atom hd Text.blanks_nil (Text.atom_decimal n)
  | @symbol name hname =>
      have hatom : Atom name.toList (.symbol name) := by
        have hsymbol := Atom.symbol (Reader.isSymbol_iff.mp hname)
        rwa [String.ofList_toList] at hsymbol
      exact .atom hd Text.blanks_nil hatom
  | string text =>
      have hstring := Sexpr.string hd Text.blanks_nil (Text.quoted_flatMap text.toList)
      rwa [String.ofList_toList] at hstring
  | bool b =>
      cases b with
      | true => exact .atom hd Text.blanks_nil .true
      | false => exact .atom hd Text.blanks_nil .false
  | @list vs _ ih =>
      have hlist : d ≤ 30 := h 0 (.here vs)
      have hi : ∀ i ∈ spelled vs, Sexpr (d + 1) i.1 i.2 := by
        intro i hi
        obtain ⟨v, hv, rfl⟩ := List.mem_map.mp hi
        refine ih v hv (by omega) fun k hk => ?_
        have hdepth := h (k + 1) (.inside hv hk)
        omega
      have hsexpr := Sexpr.list hlist Text.blanks_nil Text.blanks_nil Text.blanks_nil
        (separated_spelled vs) hi
      rw [map_snd_spelled, List.nil_append, List.nil_append, List.append_nil] at hsexpr
      exact hsexpr

theorem writable_of_atom (h : Atom s v) : v.Writable ∧ ∀ k, ¬ v.HasListAt k := by
  cases h with
  | decimal | negative | hexadecimal => exact ⟨.number _, fun k hk => nomatch hk⟩
  | true | false => exact ⟨.bool _, fun k hk => nomatch hk⟩
  | symbol hs =>
      have hname := Reader.isSymbol_iff.mpr hs
      rw [← String.toList_ofList (l := s)] at hname
      exact ⟨.symbol hname, fun k hk => nomatch hk⟩

theorem writable_of_sexpr (h : Sexpr d s v) :
    v.Writable ∧ ∀ k, v.HasListAt k → d + k ≤ 30 := by
  induction h with
  | atom _ _ h =>
      obtain ⟨hv, hk⟩ := writable_of_atom h
      exact ⟨hv, fun k h => absurd h (hk k)⟩
  | string => exact ⟨.string _, fun k hk => nomatch hk⟩
  | @quote d b s v hd _ _ ih =>
      have hquote : (symbol "quote").Writable := .symbol (by decide)
      refine ⟨.list (by simpa using ⟨hquote, ih.1⟩), fun k hk => ?_⟩
      cases hk with
      | here => exact hd
      | @inside k u _ hu hk =>
          simp only [List.mem_cons, List.not_mem_nil, or_false] at hu
          rcases hu with rfl | rfl
          · cases hk
          · have hdepth := ih.2 k hk
            omega
  | @list d b before s after items hd _ _ _ _ _ ih =>
      refine ⟨.list fun v hv => ?_, fun k hk => ?_⟩
      · obtain ⟨i, hi, rfl⟩ := List.mem_map.mp hv
        exact (ih i hi).1
      · cases hk with
        | here => exact hd
        | @inside k u _ hu hk =>
            obtain ⟨i, hi, rfl⟩ := List.mem_map.mp hu
            have hdepth := (ih i hi).2 k hk
            omega

end Value

namespace Reader

variable {d k level : Nat} {v : Value} {vs : List Value} {s t rest : List Char}
variable {items : List (List Char × Value)}

def Overflows (item : Reader Value) (s : List Char) : Prop :=
  ∀ ⦃rest⦄, Boundary rest → ∃ left, item (s ++ rest) = .error (.tooDeep left)

theorem exists_overflows_tail {item : Reader Value} {i : List Char × Value}
    (h : ∃ j ∈ i :: items, Overflows item j.1) (hi : ¬ Overflows item i.1) :
    ∃ j ∈ items, Overflows item j.1 := by
  obtain ⟨j, hj, hover⟩ := h
  rcases List.mem_cons.mp hj with rfl | hmem
  · exact absurd hover hi
  · exact ⟨j, hmem, hover⟩

theorem separated_overflows (hs : Separated (s :: items.map (·.1)) (s ++ t))
    (hi : ∀ i ∈ items, Overflows (datum (level + 1)) i.1 ∨ Takes (datum (level + 1)) i.1 i.2)
    (hover : ∃ i ∈ items, Overflows (datum (level + 1)) i.1) (hrest : Boundary rest) {fuel : Nat}
    (hfuel : (t ++ rest).length ≤ fuel) :
    ∃ left, separated (datum (level + 1)) fuel (t ++ rest) = .error (.tooDeep left) := by
  induction items generalizing s t fuel with
  | nil =>
      obtain ⟨i, hi, _⟩ := hover
      cases hi
  | cons i items ih =>
      generalize hw : s ++ t = w at hs
      cases hs with
      | @cons _ _ b t' _ hb hne hs =>
          rw [List.append_assoc] at hw
          obtain rfl := List.append_cancel_left hw
          obtain ⟨hi, his⟩ := List.forall_mem_cons.mp hi
          obtain ⟨u, rfl, hu⟩ := boundary_of_separated hs hrest
          have hb' := List.length_pos_iff.mpr hne
          simp only [List.length_append] at hfuel ih
          cases fuel with
          | zero => omega
          | succ fuel =>
              rw [List.append_assoc, separated_blanks hb hne, List.append_assoc]
              by_cases hover' : Overflows (datum (level + 1)) i.1
              · obtain ⟨left, hleft⟩ := hover' hu
                exact ⟨left, by rw [hleft]; rfl⟩
              · have htail := exists_overflows_tail hover hover'
                obtain ⟨left, hleft⟩ := ih hs his htail (show _ ≤ fuel by omega)
                exact ⟨left, by rw [hi.resolve_left hover' hu]; simp only [hleft]⟩

theorem listBody_overflows (hs : Separated (items.map (·.1)) s)
    (hi : ∀ i ∈ items, Overflows (datum (level + 1)) i.1 ∨ Takes (datum (level + 1)) i.1 i.2)
    (hover : ∃ i ∈ items, Overflows (datum (level + 1)) i.1) (hrest : Boundary rest) :
    ∃ left, listBody (datum (level + 1)) (s ++ rest) = .error (.tooDeep left) := by
  cases items with
  | nil =>
      obtain ⟨i, hi, _⟩ := hover
      cases hi
  | cons i items =>
      obtain ⟨hi, his⟩ := List.forall_mem_cons.mp hi
      obtain ⟨u, rfl, hu⟩ := boundary_of_separated hs hrest
      by_cases hover' : Overflows (datum (level + 1)) i.1
      · obtain ⟨left, hleft⟩ := hover' hu
        refine ⟨left, ?_⟩
        simp only [listBody, elements, datum_skipBlank, List.append_assoc, hleft, Fault.isFinal,
          if_true]
      · have htail := exists_overflows_tail hover hover'
        obtain ⟨left, hleft⟩ := separated_overflows hs his htail hrest le_rfl
        refine ⟨left, ?_⟩
        simp only [listBody, elements, datum_skipBlank, List.append_assoc,
          hi.resolve_left hover' hu, hleft]

theorem takes_of_writable (hv : v.Writable) (hlevel : level ≤ 31)
    (h : ∀ k, v.HasListAt k → k + 1 ≤ level) : Takes (datum (level + 1)) v.spelling v := by
  have hsexpr : Sexpr (31 - level) v.spelling v := by
    refine Value.sexpr_of_writable hv (by omega) fun k hk => ?_
    have hdepth := h k hk
    omega
  have hd : 31 - level + (level + 1) = 32 := by omega
  exact datum_of_sexpr hsexpr hd

theorem datum_overflows (hv : v.Writable) (hlevel : level ≤ 32) (hk : v.HasListAt k)
    (h : level ≤ k + 1) : Overflows (datum level) v.spelling := by
  intro rest hrest
  induction hv generalizing level k rest with
  | number | symbol | string | bool => cases hk
  | @list vs hvs ih =>
      match level, hk with
      | 0, _ => exact ⟨_, rfl⟩
      | 1, _ => exact ⟨_, rfl⟩
      | level + 2, .inside (k := k) (v := v) hv hk =>
          have hi : ∀ i ∈ Value.spelled vs,
              Overflows (datum (level + 1)) i.1 ∨ Takes (datum (level + 1)) i.1 i.2 := by
            intro i hi
            obtain ⟨w, hw, rfl⟩ := List.mem_map.mp hi
            by_cases hdeep : ∃ j, w.HasListAt j ∧ level + 1 ≤ j + 1
            · obtain ⟨j, hj, hle⟩ := hdeep
              exact .inl (ih w hw (by omega) hj hle)
            · refine .inr (takes_of_writable (hvs w hw) (by omega) fun j hj => ?_)
              by_contra hle
              exact hdeep ⟨j, hj, by omega⟩
          have hover : ∃ i ∈ Value.spelled vs, Overflows (datum (level + 1)) i.1 :=
            ⟨_, List.mem_map_of_mem hv, ih v hv (by omega) hk (by omega)⟩
          have hspelling : (Value.list vs).spelling ++ rest =
              '(' :: (Value.spellings vs ++ (')' :: rest)) :=
            congrArg ('(' :: ·) (List.append_assoc ..)
          have hclose : Boundary (')' :: rest) := boundary_close Text.blanks_nil rest
          obtain ⟨left, hleft⟩ := listBody_overflows (Value.separated_spelled vs) hi hover hclose
          refine ⟨left, ?_⟩
          rw [hspelling, datum, Text.skipBlank_eq_self (by decide)]
          exact hleft

theorem written_reads_back :
    (∀ v : Value, v.Writable → (∀ k, v.HasListAt k → k ≤ 30) → one v.text.toList = .ok v) ∧
      (∀ v : Value, v.Writable → (∃ k, v.HasListAt k ∧ 30 < k) →
        ∃ e, one v.text.toList = .error e ∧ e.kind = .tooDeeplyNested) ∧
      ∀ s v, one s = .ok v →
        v.Writable ∧ (∀ k, v.HasListAt k → k ≤ 30) ∧ one v.text.toList = .ok v := by
  have hread (v : Value) (hv : v.Writable) (h : ∀ k, v.HasListAt k → k ≤ 30) :
      one v.text.toList = .ok v := by
    have hlevel : ∀ k, v.HasListAt k → k + 1 ≤ 31 := fun k hk => Nat.succ_le_succ (h k hk)
    have htakes := takes_of_writable hv le_rfl hlevel boundary_nil
    rw [List.append_nil] at htakes
    simp only [one, Value.text, String.toList_ofList, maxNesting, htakes, Text.skipBlank_nil]
  refine ⟨hread, fun v hv h => ?_, fun s v h => ?_⟩
  · obtain ⟨k, hk, hdeep⟩ := h
    obtain ⟨left, hleft⟩ := datum_overflows hv le_rfl hk (by omega) boundary_nil
    rw [List.append_nil] at hleft
    have hone : one v.text.toList = .error (Fault.toParseError v.spelling (.tooDeep left)) := by
      simp only [one, Value.text, String.toList_ofList, maxNesting, hleft]
    exact ⟨_, hone, rfl⟩
  · obtain ⟨t, b, rfl, ht, _⟩ := expression_of_one h
    obtain ⟨hv, hk⟩ := Value.writable_of_sexpr ht
    have hk' : ∀ k, v.HasListAt k → k ≤ 30 := fun k h => by simpa using hk k h
    exact ⟨hv, hk', hread v hv hk'⟩

def nested : Nat → Value
  | 0 => .list []
  | n + 1 => .list [nested n]

theorem writable_nested (n : Nat) : (nested n).Writable := by
  induction n with
  | zero => exact .list fun _ hv => nomatch hv
  | succ n ih => exact .list (by simpa using ih)

theorem hasListAt_nested_iff {n : Nat} : (nested n).HasListAt k ↔ k ≤ n := by
  induction n generalizing k with
  | zero =>
      constructor
      · intro h
        cases h with
        | here => exact le_rfl
        | inside hv _ => cases hv
      · intro h
        obtain rfl := Nat.le_zero.mp h
        exact .here _
  | succ n ih =>
      constructor
      · intro h
        cases h with
        | here => exact Nat.zero_le _
        | inside hv h =>
            obtain rfl := List.mem_singleton.mp hv
            exact Nat.succ_le_succ (ih.mp h)
      · intro h
        cases k with
        | zero => exact .here _
        | succ k => exact .inside (List.mem_singleton_self _) (ih.mpr (Nat.le_of_succ_le_succ h))

theorem nested_reads_back :
    one (nested 30).text.toList = .ok (nested 30) ∧
      (∃ e, one (nested 31).text.toList = .error e ∧ e.kind = .tooDeeplyNested) ∧
      one (Value.list [.symbol "quote", .symbol "x"]).text.toList =
        .ok (.list [.symbol "quote", .symbol "x"]) := by
  have hquoted : one "'x".toList = .ok (.list [.symbol "quote", .symbol "x"]) := by rfl
  refine ⟨?_, ?_, (written_reads_back.2.2 _ _ hquoted).2.2⟩
  · exact written_reads_back.1 _ (writable_nested 30) fun k hk => hasListAt_nested_iff.mp hk
  · exact written_reads_back.2.1 _ (writable_nested 31) ⟨31, hasListAt_nested_iff.mpr le_rfl, by omega⟩

end Reader

end PassingLisp
