import Mathlib.Algebra.BigOperators.Group.List.Basic
import Mathlib.Algebra.Ring.Int.Defs
import Mathlib.Data.List.Chain
import PassingLisp.Proofs.Operations

namespace PassingLisp

namespace Number

def Fits (n : Int) : Prop :=
  -2 ^ 63 ≤ n ∧ n < 2 ^ 63
deriving Decidable

theorem fits_toInt (m : Int64) : Fits m.toInt :=
  ⟨m.le_toInt, m.toInt_lt⟩

theorem ofInt?_eq_none_iff {n : Int} : ofInt? n = none ↔ ¬ Fits n := by
  constructor
  · intro h hn
    have hsome : ofInt? n = some (Int64.ofInt n) :=
      ofInt?_eq_some_iff.mpr (Int64.toInt_ofInt_of_le hn.1 hn.2)
    rw [h] at hsome
    cases hsome
  · intro hn
    cases h : ofInt? n with
    | none => rfl
    | some m => exact absurd (ofInt?_eq_some_iff.mp h ▸ fits_toInt m) hn

end Number

namespace Value

def IsNumber (v : Value) : Prop :=
  ∃ n, v = number n

def numbers (ns : List Int64) : List Value :=
  ns.map number

theorem numbers_append (ns ms : List Int64) : numbers (ns ++ ms) = numbers ns ++ numbers ms :=
  List.map_append

theorem toNumber_of_not_isNumber {v : Value} (h : ¬ v.IsNumber) :
    v.toNumber = .error (.type ("expected number, got " ++ v.text)) := by
  cases v with
  | number n => exact absurd ⟨n, rfl⟩ h
  | _ => rfl

theorem exists_numbers (args : List Value) :
    ∃ ns rest, args = numbers ns ++ rest ∧ ∀ v ∈ rest.head?, ¬ v.IsNumber := by
  induction args with
  | nil => exact ⟨[], [], rfl, fun _ h => nomatch h⟩
  | cons v args ih =>
      by_cases hv : v.IsNumber
      · obtain ⟨n, rfl⟩ := hv
        obtain ⟨ns, rest, rfl, hrest⟩ := ih
        exact ⟨n :: ns, rest, rfl, hrest⟩
      · refine ⟨[], v :: args, rfl, fun u hu => ?_⟩
        cases hu
        exact hv

end Value

namespace Arithmetic

open Number Value

def integers (ns : List Int64) : List Int :=
  ns.map (·.toInt)

theorem integers_append (ns ms : List Int64) : integers (ns ++ ms) = integers ns ++ integers ms :=
  List.map_append

def Sound (exact : List Int → Int) (ns : List Int64) : Prop :=
  ∀ p, p <+: ns → p ≠ [] → Fits (exact (integers p))

inductive Calculates (operation : String) (exact : List Int → Int) :
    List Value → Except Error Value → Prop where
  | result {ns : List Int64} {m : Int64} (h : Sound exact ns) (hm : m.toInt = exact (integers ns)) :
      Calculates operation exact (numbers ns) (.ok (.number m))
  | notNumber {ns : List Int64} {v : Value} {rest : List Value} (h : Sound exact ns)
      (hv : ¬ v.IsNumber) :
      Calculates operation exact (numbers ns ++ v :: rest)
        (.error (.type ("expected number, got " ++ v.text)))
  | tooLarge {ns : List Int64} {n : Int64} {rest : List Value} (h : Sound exact ns)
      (hn : ¬ Fits (exact (integers (ns ++ [n])))) :
      Calculates operation exact (numbers ns ++ .number n :: rest)
        (.error (.evaluation ("Integer overflow in " ++ operation)))

variable {operation : String} {exact : List Int → Int} {ns ms : List Int64} {n : Int64}
  {args rest rest' : List Value} {r r' : Except Error Value}

theorem sound_nil (exact : List Int → Int) : Sound exact [] :=
  fun _ hp hne => absurd (List.prefix_nil.mp hp) hne

theorem sound_concat (h : Sound exact ns) (hn : Fits (exact (integers (ns ++ [n])))) :
    Sound exact (ns ++ [n]) := by
  intro p hp hne
  rcases List.prefix_concat_iff.mp hp with rfl | hp
  · exact hn
  · exact h p hp hne

structure Halts (exact : List Int → Int) (ns : List Int64) (rest : List Value) : Prop where
  sound : Sound exact ns
  stops : ∀ n rest', rest = .number n :: rest' → ¬ Fits (exact (integers (ns ++ [n])))

theorem numbers_injective : Function.Injective numbers :=
  List.map_injective_iff.mpr fun _ _ h => Value.number.inj h

theorem Halts.eq_of_append {t : List Value} (h : Halts exact ns rest) (h' : Halts exact ms rest')
    (hms : numbers ms = numbers ns ++ t) (hrest : rest = t ++ rest') : ns = ms ∧ rest = rest' := by
  obtain ⟨ns', ks, rfl, hns, rfl⟩ := List.map_eq_append_iff.mp hms
  obtain rfl := numbers_injective hns
  cases ks with
  | nil => exact ⟨(List.append_nil _).symm, hrest⟩
  | cons n ks =>
      refine absurd (h'.sound _ ⟨ks, ?_⟩ (by simp)) (h.stops n _ hrest)
      rw [List.append_assoc]
      rfl

theorem Halts.unique (h : Halts exact ns rest) (h' : Halts exact ms rest')
    (heq : numbers ns ++ rest = numbers ms ++ rest') : ns = ms ∧ rest = rest' := by
  rcases List.append_eq_append_iff.mp heq with ⟨t, hms, hrest⟩ | ⟨t, hns, hrest⟩
  · exact h.eq_of_append h' hms hrest
  · obtain ⟨rfl, rfl⟩ := h'.eq_of_append h hns hrest
    exact ⟨rfl, rfl⟩

def answerAt (operation : String) (exact : List Int → Int) (ns : List Int64) :
    List Value → Except Error Value → Prop
  | [], r => ∃ m : Int64, m.toInt = exact (integers ns) ∧ r = .ok (.number m)
  | .number _ :: _, r => r = .error (.evaluation ("Integer overflow in " ++ operation))
  | v :: _, r => r = .error (.type ("expected number, got " ++ v.text))

theorem Calculates.exists_halts (h : Calculates operation exact args r) :
    ∃ ns rest, args = numbers ns ++ rest ∧ Halts exact ns rest ∧
      answerAt operation exact ns rest r := by
  cases h with
  | @result ns m h hm =>
      exact ⟨ns, [], (List.append_nil _).symm, ⟨h, fun _ _ h => nomatch h⟩, m, hm, rfl⟩
  | @notNumber ns v rest h hv =>
      refine ⟨ns, v :: rest, rfl, ⟨h, fun n _ heq => ?_⟩, ?_⟩
      · cases heq
        exact absurd ⟨n, rfl⟩ hv
      · cases v with
        | number n => exact absurd ⟨n, rfl⟩ hv
        | _ => rfl
  | @tooLarge ns n rest h hn =>
      refine ⟨ns, .number n :: rest, rfl, ⟨h, fun _ _ heq => ?_⟩, rfl⟩
      cases heq
      exact hn

theorem answerAt_unique (h : answerAt operation exact ns rest r)
    (h' : answerAt operation exact ns rest r') : r = r' := by
  match rest, h, h' with
  | [], ⟨m, hm, hr⟩, ⟨m', hm', hr'⟩ =>
      obtain rfl := Int64.toInt_inj.mp (hm.trans hm'.symm)
      exact hr.trans hr'.symm
  | v :: _, h, h' => cases v <;> exact Eq.trans h h'.symm

theorem Calculates.unique (h : Calculates operation exact args r)
    (h' : Calculates operation exact args r') : r = r' := by
  obtain ⟨ns, rest, rfl, hhalts, hr⟩ := h.exists_halts
  obtain ⟨ms, rest', heq, hhalts', hr'⟩ := h'.exists_halts
  obtain ⟨rfl, rfl⟩ := hhalts.unique hhalts' heq
  exact answerAt_unique hr hr'

theorem checked_cases (operation : String) (n : Int) :
    (∃ m : Int64, m.toInt = n ∧ checked operation n = .ok m) ∨
      ¬ Fits n ∧
        checked operation n = .error (.evaluation ("Integer overflow in " ++ operation)) := by
  unfold checked
  cases h : ofInt? n with
  | some m => exact .inl ⟨m, ofInt?_eq_some_iff.mp h, rfl⟩
  | none => exact .inr ⟨ofInt?_eq_none_iff.mp h, rfl⟩

theorem calculates_accumulate {op : Int → Int → Int} {acc : Int64} (hs : Sound exact ns)
    (hacc : acc.toInt = exact (integers ns))
    (hop : ∀ p n, ns <+: p → exact (integers (p ++ [n])) = op (exact (integers p)) n.toInt)
    (rest : List Value) :
    Calculates operation exact (numbers ns ++ rest)
      ((accumulate operation op acc rest).map .number) := by
  induction rest generalizing acc ns with
  | nil =>
      rw [List.append_nil]
      exact .result hs hacc
  | cons v rest ih =>
      by_cases hv : v.IsNumber
      · obtain ⟨n, rfl⟩ := hv
        have hnext := hop ns n (List.prefix_refl ns)
        rw [← hacc] at hnext
        rcases checked_cases operation (op acc.toInt n.toInt) with ⟨m, hm, hc⟩ | ⟨hn, hc⟩
        · have hm' : m.toInt = exact (integers (ns ++ [n])) := hm.trans hnext.symm
          have hrest := ih (sound_concat hs (hm' ▸ fits_toInt m)) hm'
            fun p k hp => hop p k ((List.prefix_append ns [n]).trans hp)
          rw [numbers_append, List.append_assoc] at hrest
          simp only [accumulate, toNumber, hc]
          exact hrest
        · simp only [accumulate, toNumber, hc]
          exact .tooLarge hs (hnext ▸ hn)
      · rw [accumulate, toNumber_of_not_isNumber hv]
        exact .notNumber hs hv

theorem calculates_add (args : List Value) : Calculates "addition" List.sum args (add args) := by
  refine calculates_accumulate (sound_nil _) rfl (fun p n _ => ?_) args
  rw [integers_append, List.sum_append]
  simp [integers]

theorem calculates_multiply (args : List Value) :
    Calculates "multiplication" List.prod args (multiply args) := by
  refine calculates_accumulate (sound_nil _) rfl (fun p n _ => ?_) args
  rw [integers_append, List.prod_append]
  simp [integers]

theorem calculates_negate (v : Value) :
    Calculates "negation" (fun ns => -ns.sum) [v] (subtract [v]) := by
  by_cases hv : v.IsNumber
  · obtain ⟨n, rfl⟩ := hv
    have hexact : -n.toInt = -(integers [n]).sum := by simp [integers]
    rcases checked_cases "negation" (-n.toInt) with ⟨m, hm, hc⟩ | ⟨hn, hc⟩
    · have hm' := hm.trans hexact
      simp only [subtract, toNumber, hc]
      exact .result (sound_concat (sound_nil _) (hm' ▸ fits_toInt m)) hm'
    · simp only [subtract, toNumber, hc]
      exact .tooLarge (sound_nil _) (hexact ▸ hn)
  · simp only [subtract, toNumber_of_not_isNumber hv]
    exact .notNumber (sound_nil _) hv

def difference : List Int → Int
  | [] => 0
  | n :: ns => n - ns.sum

theorem calculates_subtract (u v : Value) (vs : List Value) :
    Calculates "subtraction" difference (u :: v :: vs) (subtract (u :: v :: vs)) := by
  by_cases hu : u.IsNumber
  · obtain ⟨n, rfl⟩ := hu
    have hfirst : n.toInt = difference (integers [n]) := by simp [difference, integers]
    have hs : Sound difference ([] ++ [n]) := sound_concat (sound_nil _) (hfirst ▸ fits_toInt n)
    refine calculates_accumulate hs hfirst (fun p k hp => ?_) (v :: vs)
    obtain ⟨p, rfl⟩ := hp
    simp only [integers, List.map_append, List.map_cons, List.nil_append, List.cons_append,
      difference, List.sum_append, List.map_nil, List.sum_cons, List.sum_nil]
    omega
  · simp only [subtract, toNumber_of_not_isNumber hu]
    exact .notNumber (sound_nil _) hu

section

variable {better : Int64 → Int64 → Int64} (above : Int64 → Int64 → Prop)
  (hbetter : ∀ a b, better a b = a ∧ above a b ∨ better a b = b ∧ above b a)
  (hrefl : ∀ a, above a a) (htrans : ∀ {a b c}, above a b → above b c → above a c)

include hbetter hrefl htrans

theorem exists_select (n : Int64) (ns : List Int64) :
    ∃ m ∈ n :: ns, (∀ k ∈ n :: ns, above m k) ∧ select better n (numbers ns) = .ok m := by
  induction ns generalizing n with
  | nil =>
      refine ⟨n, List.mem_singleton_self n, fun k hk => ?_, rfl⟩
      obtain rfl := List.mem_singleton.mp hk
      exact hrefl k
  | cons k ns ih =>
      obtain ⟨m, hm, habove, hselect⟩ := ih (better n k)
      have hbest := habove _ List.mem_cons_self
      have hrest : ∀ l ∈ ns, above m l := fun l hl => habove l (List.mem_cons_of_mem _ hl)
      rcases hbetter n k with ⟨heq, hnk⟩ | ⟨heq, hkn⟩
      · rw [heq] at hm hbest
        have hm' := List.mem_cons.mpr ((List.mem_cons.mp hm).imp_right (List.mem_cons_of_mem k))
        refine ⟨m, hm', ?_, hselect⟩
        exact List.forall_mem_cons.mpr ⟨hbest, List.forall_mem_cons.mpr ⟨htrans hbest hnk, hrest⟩⟩
      · rw [heq] at hm hbest
        refine ⟨m, List.mem_cons_of_mem n hm, ?_, hselect⟩
        exact List.forall_mem_cons.mpr ⟨htrans hbest hkn, List.forall_mem_cons.mpr ⟨hbest, hrest⟩⟩

theorem exists_selectFrom (hns : ns ≠ []) :
    ∃ m ∈ ns, (∀ n ∈ ns, above m n) ∧ selectFrom better (numbers ns) = .ok (.number m) := by
  obtain ⟨n, ns, rfl⟩ := List.exists_cons_of_ne_nil hns
  obtain ⟨m, hm, habove, hselect⟩ := exists_select above hbetter hrefl htrans n ns
  refine ⟨m, hm, habove, ?_⟩
  simp only [numbers, List.map_cons, selectFrom, toNumber]
  rw [← numbers, hselect]
  rfl

end

theorem exists_maximum (hns : ns ≠ []) :
    ∃ m ∈ ns, (∀ n ∈ ns, n.toInt ≤ m.toInt) ∧ maximum (numbers ns) = .ok (.number m) := by
  refine exists_selectFrom (fun a b => b.toInt ≤ a.toInt) (fun a b => ?_)
    (fun _ => Int.le_refl _) (fun h h' => Int.le_trans h' h) hns
  simp only [Int64.le_iff_toInt_le]
  split
  · exact .inr ⟨rfl, by assumption⟩
  · exact .inl ⟨rfl, by omega⟩

theorem exists_minimum (hns : ns ≠ []) :
    ∃ m ∈ ns, (∀ n ∈ ns, m.toInt ≤ n.toInt) ∧ minimum (numbers ns) = .ok (.number m) := by
  refine exists_selectFrom (fun a b => a.toInt ≤ b.toInt) (fun a b => ?_)
    (fun _ => Int.le_refl _) Int.le_trans hns
  simp only [Int64.le_iff_toInt_le]
  split
  · exact .inl ⟨rfl, by assumption⟩
  · exact .inr ⟨rfl, by omega⟩

theorem toNumbers_append (ns : List Int64) (rest : List Value) :
    toNumbers (numbers ns ++ rest) = (toNumbers rest).map (ns ++ ·) := by
  induction ns with
  | nil => cases h : toNumbers rest <;> simp [numbers, h, Except.map]
  | cons n ns ih =>
      simp only [numbers, List.map_cons, List.cons_append, toNumbers, toNumber] at ih ⊢
      rw [ih]
      cases toNumbers rest <;> rfl

theorem chained_iff {rel : Int64 → Int64 → Bool} :
    chained rel ns = true ↔ ns.IsChain (rel · ·) := by
  induction ns with
  | nil => simp [chained]
  | cons n ns ih => cases ns <;> simp_all [chained]

theorem chained_iff_pairwise {rel : Int64 → Int64 → Bool} {R : Int → Int → Prop} [Trans R R R]
    (hrel : ∀ a b, rel a b = true ↔ R a.toInt b.toInt) :
    chained rel ns = true ↔ (integers ns).Pairwise R := by
  rw [chained_iff, ← List.isChain_iff_pairwise, integers, List.isChain_map]
  simp only [hrel]

theorem compare_numbers (rel : Int64 → Int64 → Bool) (ns : List Int64) :
    Arithmetic.compare rel (numbers ns) = .ok (.bool (chained rel ns)) := by
  have hall := toNumbers_append ns []
  rw [List.append_nil] at hall
  simp [Arithmetic.compare, hall, toNumbers, Except.map]

theorem compare_not_number (rel : Int64 → Int64 → Bool) (ns : List Int64) {v : Value}
    (hv : ¬ v.IsNumber) (rest : List Value) :
    Arithmetic.compare rel (numbers ns ++ v :: rest) =
      .error (.type ("expected number, got " ++ v.text)) := by
  simp [Arithmetic.compare, toNumbers_append, toNumbers, toNumber_of_not_isNumber hv, Except.map]

end Arithmetic

namespace Interpreter

open Arithmetic Value

def Follows (i : Interpreter) (name : String) (args : List Value)
    (spec : List Value → Except Error Value → Prop) : Prop :=
  ∃ r, i.Answers name args r ∧ ∀ r', spec args r' ↔ r' = r

structure Compares (i : Interpreter) (name : String) (R : Int → Int → Prop) : Prop where
  numbers {ns : List Int64} : 2 ≤ ns.length →
    ∃ b, i.Answers name (Value.numbers ns) (.ok (.bool b)) ∧ (b = true ↔ (integers ns).Pairwise R)
  notNumber {args : List Value} : 2 ≤ args.length → (∃ v ∈ args, ¬ v.IsNumber) →
    ∃ ns v rest, args = Value.numbers ns ++ v :: rest ∧ ¬ v.IsNumber ∧
      i.Answers name args (.error (.type ("expected number, got " ++ v.text)))

structure Reckons (i : Interpreter) : Prop where
  adds (args : List Value) : i.Follows "+" args (Calculates "addition" List.sum)
  multiplies (args : List Value) : i.Follows "*" args (Calculates "multiplication" List.prod)
  negates (v : Value) : i.Follows "-" [v] (Calculates "negation" fun ns => -ns.sum)
  subtracts (u v : Value) (vs : List Value) :
    i.Follows "-" (u :: v :: vs) (Calculates "subtraction" difference)
  maximum {ns : List Int64} : ns ≠ [] →
    ∃ m ∈ ns, (∀ n ∈ ns, n.toInt ≤ m.toInt) ∧ i.Answers "max" (numbers ns) (.ok (.number m))
  minimum {ns : List Int64} : ns ≠ [] →
    ∃ m ∈ ns, (∀ n ∈ ns, m.toInt ≤ n.toInt) ∧ i.Answers "min" (numbers ns) (.ok (.number m))
  equal : i.Compares "=" (· = ·)
  less : i.Compares "<" (· < ·)
  greater : i.Compares ">" (· > ·)
  atMost : i.Compares "<=" (· ≤ ·)
  atLeast : i.Compares ">=" (· ≥ ·)

variable {i : Interpreter} {name operation : String} {index : Nat} {args : List Value}
  {r : Except Error Value} {exact : List Int → Int}

theorem Follows.answers {spec : List Value → Except Error Value → Prop}
    (h : i.Follows name args spec) (hr : spec args r) : i.Answers name args r := by
  obtain ⟨r', hanswers, hspec⟩ := h
  exact (hspec r).mp hr ▸ hanswers

theorem accepts_numbers {ns : List Int64} (hns : ns ≠ []) :
    (Arity.atLeast 1).accepts (numbers ns).length = true := by
  obtain ⟨n, ns, rfl⟩ := List.exists_cons_of_ne_nil hns
  simp [Arity.accepts, numbers]

theorem Stocked.follows (h : i.Stocked) {run : List Value → Except Error Value} {arity : Arity}
    (hname : State.initial.store.get? .globals name = some (.builtin name index))
    (hb : Builtin.core[index]? = some (name, ⟨arity, fun args => .ofExcept (run args)⟩))
    (harity : arity.accepts args.length = true)
    (hrun : Calculates operation exact args (run args)) :
    i.Follows name args (Calculates operation exact) := by
  have hplain : ∀ v, run args = .ok v → v.Plain := by
    intro v hv
    rw [hv] at hrun
    cases hrun
    trivial
  exact ⟨_, h.answers hname hb (Builtin.call_of_accepts harity) hplain, fun r' =>
    ⟨fun hr' => hr'.unique hrun, fun hr' => hr' ▸ hrun⟩⟩

theorem Stocked.compares (h : i.Stocked) {rel : Int64 → Int64 → Bool} {R : Int → Int → Prop}
    [Trans R R R] (hrel : ∀ a b, rel a b = true ↔ R a.toInt b.toInt)
    (hname : State.initial.store.get? .globals name = some (.builtin name index))
    (hb : Builtin.core[index]? = some (name, Builtin.comparison rel)) : i.Compares name R where
  numbers {ns} hlen := by
    have harity : (Arity.atLeast 2).accepts (Value.numbers ns).length = true := by
      simpa [Arity.accepts, Value.numbers] using hlen
    have hcall : (Builtin.comparison rel).call (Value.numbers ns) =
        .ofExcept (.ok (.bool (chained rel ns))) := by
      rw [Builtin.comparison, Builtin.call_of_accepts harity, compare_numbers]
    exact ⟨chained rel ns, h.answers_ok hname hb hcall trivial, chained_iff_pairwise hrel⟩
  notNumber {args} hlen := by
    rintro ⟨u, hu, hnot⟩
    have harity : (Arity.atLeast 2).accepts args.length = true := decide_eq_true hlen
    obtain ⟨ns, rest, rfl, hrest⟩ := Value.exists_numbers args
    cases rest with
    | nil =>
        rw [List.append_nil] at hu
        obtain ⟨n, -, rfl⟩ := List.mem_map.mp hu
        exact absurd ⟨n, rfl⟩ hnot
    | cons v rest =>
        have hv : ¬ v.IsNumber := hrest v rfl
        refine ⟨ns, v, rest, rfl, hv, h.answers_error hname hb ?_⟩
        rw [Builtin.comparison, Builtin.call_of_accepts harity, compare_not_number rel ns hv]

theorem reckons (h : i.Stocked) : i.Reckons where
  adds args := h.follows rfl rfl rfl (calculates_add args)
  multiplies args := h.follows rfl rfl rfl (calculates_multiply args)
  negates v := h.follows rfl rfl rfl (calculates_negate v)
  subtracts u v vs := h.follows rfl rfl rfl (calculates_subtract u v vs)
  maximum {ns} hns := by
    obtain ⟨m, hm, hbound, hrun⟩ := exists_maximum hns
    refine ⟨m, hm, hbound, h.answers_ok rfl rfl ?_ trivial⟩
    rw [Builtin.call_of_accepts (accepts_numbers hns), hrun]
  minimum {ns} hns := by
    obtain ⟨m, hm, hbound, hrun⟩ := exists_minimum hns
    refine ⟨m, hm, hbound, h.answers_ok rfl rfl ?_ trivial⟩
    rw [Builtin.call_of_accepts (accepts_numbers hns), hrun]
  equal := h.compares (fun a b => by simp [Int64.toInt_inj]) rfl rfl
  less := h.compares (fun a b => by simp [Int64.lt_iff_toInt_lt]) rfl rfl
  greater := h.compares (fun a b => by simp [Int64.lt_iff_toInt_lt]) rfl rfl
  atMost := h.compares (fun a b => by simp [Int64.le_iff_toInt_le]) rfl rfl
  atLeast := h.compares (fun a b => by simp [Int64.le_iff_toInt_le]) rfl rfl

theorem reckons_overflowing :
    (CommandLine.session {}).interpreter.Stocked ∧
      (CommandLine.session {}).interpreter.Answers "+"
        [.number Int64.maxValue, .number 1, .symbol "x", .number (-1)]
        (.error (.evaluation "Integer overflow in addition")) ∧
      (CommandLine.session {}).interpreter.Answers "-" [.number Int64.minValue]
        (.error (.evaluation "Integer overflow in negation")) := by
  have hreckons := reckons (stocked_session {})
  refine ⟨stocked_session {}, (hreckons.adds _).answers ?_, (hreckons.negates _).answers ?_⟩
  · have hmax : Sound List.sum ([] ++ [Int64.maxValue]) := sound_concat (sound_nil _) (by decide)
    exact .tooLarge hmax (by decide)
  · exact .tooLarge (sound_nil _) (by decide)

end Interpreter

end PassingLisp
