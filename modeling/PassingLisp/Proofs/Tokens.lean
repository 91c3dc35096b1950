import Mathlib.Data.List.Induction
import Mathlib.Data.List.TakeWhile
import Mathlib.Data.Option.Basic
import PassingLisp.Proofs.Grammar
import PassingLisp.Reader.Datum

namespace PassingLisp

open Grammar

namespace Number

variable {base : Nat} {s : List Char} {c : Char} {k n : Nat}

theorem ascii_digits : ∀ n < 128, isHexDigit (Char.ofNat n) = true →
    digit (Char.ofNat n) < 16 ∧ (Char.ofNat n).toLower = (digit (Char.ofNat n)).digitChar ∧
      ((Char.ofNat n).isDigit = true ↔ digit (Char.ofNat n) < 10) := by
  decide

theorem ascii_toLower : ∀ n < 128, isHexDigit (Char.ofNat n).toLower = true →
    isHexDigit (Char.ofNat n) = true := by
  decide

theorem ascii_isAlphanum : ∀ n < 128, isHexDigit (Char.ofNat n) = true →
    (Char.ofNat n).isAlphanum = true := by
  decide

theorem isHexDigit_digitChar : ∀ k < 16, isHexDigit k.digitChar = true ∧ digit k.digitChar = k := by
  decide

theorem toNat_lt_of_isHexDigit (h : isHexDigit c = true) : c.toNat < 128 := by
  simp only [isHexDigit, Char.isDigit, Bool.or_eq_true, Bool.and_eq_true, decide_eq_true_eq,
    Char.le_def, UInt32.le_iff_toNat_le, ge_iff_le] at h
  have htoNat : c.toNat = c.val.toNat := rfl
  have hnine : '9'.val.toNat = 57 := rfl
  have hf : 'f'.val.toNat = 102 := rfl
  have hF : 'F'.val.toNat = 70 := rfl
  omega

theorem toLower_of_isHexDigit (h : isHexDigit c = true) :
    digit c < 16 ∧ c.toLower = (digit c).digitChar ∧ (c.isDigit = true ↔ digit c < 10) := by
  have hdigits := ascii_digits c.toNat (toNat_lt_of_isHexDigit h)
  rw [Char.ofNat_toNat] at hdigits
  exact hdigits h

theorem isHexDigit_of_toLower (h : isHexDigit c.toLower = true) : isHexDigit c = true := by
  by_cases hc : c.toNat < 128
  · have hlower := ascii_toLower c.toNat hc
    rw [Char.ofNat_toNat] at hlower
    exact hlower h
  · have hupper : ¬ (c.val ≥ 'A'.val ∧ c.val ≤ 'Z'.val) := by
      simp only [UInt32.le_iff_toNat_le, ge_iff_le]
      have htoNat : c.toNat = c.val.toNat := rfl
      have hZ : 'Z'.val.toNat = 90 := rfl
      omega
    have hself : c.toLower = c := dif_neg hupper
    rwa [hself] at h

theorem hexDigit_iff : k < 16 ∧ c.toLower = k.digitChar ↔ isHexDigit c = true ∧ digit c = k := by
  constructor
  · rintro ⟨hk, hc⟩
    obtain ⟨hhex, hdigit⟩ := isHexDigit_digitChar k hk
    have hc' : isHexDigit c = true := isHexDigit_of_toLower (hc ▸ hhex)
    obtain ⟨hlt, hlower, _⟩ := toLower_of_isHexDigit hc'
    have hk' := (isHexDigit_digitChar _ hlt).2
    rw [← hlower, hc, hdigit] at hk'
    exact ⟨hc', hk'.symm⟩
  · rintro ⟨hc, rfl⟩
    obtain ⟨hlt, hlower, _⟩ := toLower_of_isHexDigit hc
    exact ⟨hlt, hlower⟩

theorem decimalDigit_iff : k < 10 ∧ c.toLower = k.digitChar ↔ c.isDigit = true ∧ digit c = k := by
  constructor
  · rintro ⟨hk, hc⟩
    obtain ⟨hhex, rfl⟩ := hexDigit_iff.mp ⟨by omega, hc⟩
    exact ⟨(toLower_of_isHexDigit hhex).2.2.mpr hk, rfl⟩
  · rintro ⟨hc, rfl⟩
    have hhex : isHexDigit c = true := by simp [isHexDigit, hc]
    obtain ⟨_, hlower, hten⟩ := toLower_of_isHexDigit hhex
    exact ⟨hten.mp hc, hlower⟩

theorem ofDigits_concat (s : List Char) (c : Char) :
    ofDigits base (s ++ [c]) = ofDigits base s * base + digit c := by
  simp [ofDigits]

theorem ofDigits_singleton (c : Char) : ofDigits base [c] = digit c := by
  simp [ofDigits]

theorem numeral_iff {p : Char → Bool}
    (hp : ∀ {k c}, k < base ∧ c.toLower = k.digitChar ↔ p c = true ∧ digit c = k) :
    Numeral base s n ↔ s ≠ [] ∧ (∀ c ∈ s, p c = true) ∧ ofDigits base s = n := by
  constructor
  · intro h
    induction h with
    | @digit c k hk hc =>
        obtain ⟨hpc, hdigit⟩ := hp.mp ⟨hk, hc⟩
        exact ⟨by simp, by simpa using hpc, by rw [ofDigits_singleton, hdigit]⟩
    | @snoc s n c k _ hk hc ih =>
        obtain ⟨hpc, hdigit⟩ := hp.mp ⟨hk, hc⟩
        obtain ⟨_, hs, hn⟩ := ih
        refine ⟨by simp, ?_, by rw [ofDigits_concat, hn, hdigit]⟩
        simpa [or_imp, forall_and] using ⟨hs, hpc⟩
  · rintro ⟨hne, hs, rfl⟩
    induction s using List.reverseRecOn with
    | nil => exact absurd rfl hne
    | append_singleton s c ih =>
        obtain ⟨hk, hc⟩ := hp.mpr ⟨hs c (by simp), rfl⟩
        by_cases hnil : s = []
        · subst hnil
          rw [List.nil_append, ofDigits_singleton]
          exact .digit hk hc
        · rw [ofDigits_concat]
          exact .snoc (ih hnil fun c' h => hs c' (by simp [h])) hk hc

end Number

namespace Reader

variable {s t input rest : List Char} {c : Char} {v : Value}

def Boundary (rest : List Char) : Prop :=
  ∀ c, rest.head? = some c → Text.isBlank c = true ∨ c = ')'

theorem not_symbolChar_of_boundary (h : Text.isBlank c = true ∨ c = ')') :
    isSymbolChar c = false ∧ Number.isHexDigit c = false ∧ c.isDigit = false := by
  simp only [Text.isBlank, Bool.or_eq_true, decide_eq_true_eq] at h
  rcases h with (((rfl | rfl) | rfl) | rfl) | rfl <;> decide

theorem takeWhile_append {p : Char → Bool} (hs : ∀ c ∈ s, p c = true)
    (hrest : ∀ c, rest.head? = some c → p c = false) :
    (s ++ rest).takeWhile p = s ∧ (s ++ rest).dropWhile p = rest := by
  rw [List.takeWhile_append_of_pos hs, List.dropWhile_append_of_pos hs]
  cases rest with
  | nil => simp
  | cons c rest => simp [hrest c rfl]

theorem dropWhile_head {p : Char → Bool} (hc : (input.dropWhile p).head? = some c) :
    p c = false := by
  have hhead := List.head?_dropWhile_not p input
  rw [hc] at hhead
  exact hhead

def numeral? (base : Nat) (p : Char → Bool) (sign : Int → Int) (input : List Char) :
    Option (Value × List Char) :=
  if (input.takeWhile p).isEmpty then none
  else
    (Number.ofInt? (sign (Number.ofDigits base (input.takeWhile p)))).map fun m =>
      (.number m, input.dropWhile p)

section

variable {base n : Nat} {m : Int64} {p : Char → Bool} {sign : Int → Int}
  (hp : ∀ {k c}, k < base ∧ c.toLower = k.digitChar ↔ p c = true ∧ Number.digit c = k)

include hp

theorem digit_iff : Digit base c ↔ p c = true :=
  ⟨fun ⟨_, hk, hc⟩ => (hp.mp ⟨hk, hc⟩).1, fun hc => ⟨_, hp.mpr ⟨hc, rfl⟩⟩⟩

theorem exists_numeral_of_numeral? (h : numeral? base p sign input = some (v, rest)) :
    ∃ s n m, input = s ++ rest ∧ (Numeral base s n ∧ m.toInt = sign n ∧ Stops (Digit base) rest) ∧
      v = .number m := by
  unfold numeral? at h
  split at h
  · cases h
  · rename_i hne
    obtain ⟨m, hm, heq⟩ := Option.map_eq_some_iff.mp h
    cases heq
    have hnumeral := (Number.numeral_iff hp).mpr
      ⟨by simpa using hne, fun c hc => List.mem_takeWhile_imp hc, rfl⟩
    have hstops : Stops (Digit base) (input.dropWhile p) := by
      intro c hc
      rw [digit_iff hp, dropWhile_head hc]
      exact Bool.false_ne_true
    refine ⟨input.takeWhile p, _, m, by simp, ⟨hnumeral, ?_, hstops⟩, rfl⟩
    exact Number.ofInt?_eq_some_iff.mp hm

theorem numeral?_of_numeral (h : Numeral base s n) (hm : m.toInt = sign n)
    (hrest : Stops (Digit base) rest) :
    numeral? base p sign (s ++ rest) = some (.number m, rest) := by
  obtain ⟨hne, hs, rfl⟩ := (Number.numeral_iff hp).mp h
  obtain ⟨htake, hdrop⟩ := takeWhile_append hs fun c hc =>
    Bool.eq_false_iff.mpr (mt (digit_iff hp).mpr (hrest c hc))
  have hsize : Number.ofInt? (sign (Number.ofDigits base s)) = some m :=
    Number.ofInt?_eq_some_iff.mpr hm
  simp [numeral?, htake, hdrop, hne, hsize]

end

theorem decimal?_minus (input : List Char) :
    decimal? ('-' :: input) = numeral? 10 Char.isDigit Neg.neg input := by
  simp only [decimal?, List.head?_cons, if_true]
  rfl

theorem decimal?_of_head?_ne (h : input.head? ≠ some '-') :
    decimal? input = numeral? 10 Char.isDigit id input := by
  unfold decimal?
  split
  · exact absurd rfl h
  · simp only [h, if_false]
    rfl

theorem hexadecimal?_eq (x : Char) (input : List Char) :
    hexadecimal? ('#' :: x :: input) =
      if x = 'x' ∨ x = 'X' then numeral? 16 Number.isHexDigit id input else none := by
  by_cases hx : x = 'x' ∨ x = 'X'
  · simp only [hexadecimal?, numeral?, hx, true_and, if_true, ite_not]
    rfl
  · simp only [hexadecimal?, hx, false_and, if_false]

theorem exists_leads_of_decimal? (h : decimal? input = some (v, rest)) :
    ∃ s, input = s ++ rest ∧ Leads s v rest := by
  by_cases hsign : input.head? = some '-'
  · obtain ⟨body, rfl⟩ := List.head?_eq_some_iff.mp hsign
    rw [decimal?_minus] at h
    obtain ⟨s, n, m, rfl, ⟨hs, hm, hstops⟩, rfl⟩ :=
      exists_numeral_of_numeral? Number.decimalDigit_iff h
    exact ⟨'-' :: s, rfl, .negative hs hm hstops⟩
  · rw [decimal?_of_head?_ne hsign] at h
    obtain ⟨s, n, m, rfl, ⟨hs, hm, hstops⟩, rfl⟩ :=
      exists_numeral_of_numeral? Number.decimalDigit_iff h
    exact ⟨s, rfl, .decimal hs hm hstops⟩

theorem exists_leads_of_hexadecimal? (h : hexadecimal? input = some (v, rest)) :
    ∃ s, input = s ++ rest ∧ Leads s v rest := by
  unfold hexadecimal? at h
  split at h
  · rename_i x body
    have h' : hexadecimal? ('#' :: x :: body) = some (v, rest) := h
    rw [hexadecimal?_eq] at h'
    split at h'
    · rename_i hx
      obtain ⟨s, n, m, rfl, ⟨hs, hm, hstops⟩, rfl⟩ :=
      exists_numeral_of_numeral? Number.hexDigit_iff h'
      exact ⟨'#' :: x :: s, rfl, .hexadecimal hx hs hm hstops⟩
    · cases h'
  · cases h

theorem exists_leads_of_bool? (h : bool? input = some (v, rest)) :
    ∃ s, input = s ++ rest ∧ Leads s v rest := by
  unfold bool? at h
  split at h
  · cases h
    exact ⟨_, rfl, .true rest⟩
  · cases h
    exact ⟨_, rfl, .false rest⟩
  · cases h

theorem isDigit_iff : c.isDigit = true ↔ '0' ≤ c ∧ c ≤ '9' := by
  simp [Char.isDigit, Char.le_def]

theorem startsNumber_iff :
    startsNumber s = true ↔ ∃ c t, (s = c :: t ∨ s = '-' :: c :: t) ∧ c.isDigit = true := by
  fun_cases startsNumber s with
  | case1 c t => 
      constructor
      · intro h
        exact ⟨c, t, .inr rfl, h⟩
      · rintro ⟨c', t', h | h, hc⟩
        · cases h
          exact absurd hc (by decide)
        · cases h
          exact hc
  | case2 c t hne =>
      constructor
      · intro h
        exact ⟨c, t, .inl rfl, h⟩
      · rintro ⟨c', t', h | h, hc⟩
        · cases h
          exact hc
        · cases h
          exact absurd rfl (hne c' t' rfl)
  | case3 => simp

theorem symbolSigns_eq : symbolSigns = signs := by
  decide

theorem isSymbolChar_iff : isSymbolChar c = true ↔ Text.isAlphanumeric c = true ∨ c ∈ signs := by
  rw [isSymbolChar, symbolSigns_eq, Bool.or_eq_true, List.contains_iff_mem]

theorem isSymbol_iff : isSymbol s = true ↔ Symbol s := by
  simp only [isSymbol, Bool.and_eq_true, Bool.not_eq_true', List.all_eq_true, isSymbolChar_iff]
  constructor
  · rintro ⟨⟨hne, hnumber⟩, hchars⟩
    refine ⟨by simpa using hne, hchars, fun c t hs hc => ?_⟩
    rw [startsNumber_iff.mpr ⟨c, t, hs, isDigit_iff.mpr hc⟩] at hnumber
    cases hnumber
  · rintro ⟨hne, hchars, hnumber⟩
    refine ⟨⟨by simpa using hne, ?_⟩, hchars⟩
    rw [← Bool.not_eq_true, startsNumber_iff]
    rintro ⟨c, t, hs, hc⟩
    exact hnumber c t hs (isDigit_iff.mp hc)

theorem exists_leads_of_symbol? (h : symbol? input = some (v, rest)) :
    ∃ s, input = s ++ rest ∧ Leads s v rest := by
  unfold symbol? at h
  dsimp only at h
  split at h
  · rename_i hs
    cases h
    refine ⟨_, by simp, .symbol (isSymbol_iff.mp hs) fun c hc => mt isSymbolChar_iff.mpr ?_⟩
    rw [dropWhile_head hc]
    exact Bool.false_ne_true
  · cases h

theorem exists_leads_of_atom? (h : atom? input = some (v, rest)) :
    ∃ s, input = s ++ rest ∧ Leads s v rest := by
  simp only [atom?, Option.orElse_eq_some] at h
  rcases h with h | ⟨_, h | ⟨_, h | ⟨_, h⟩⟩⟩
  · exact exists_leads_of_hexadecimal? h
  · exact exists_leads_of_decimal? h
  · exact exists_leads_of_bool? h
  · exact exists_leads_of_symbol? h

theorem exists_atom_of_atom? (h : atom? input = some (v, rest)) :
    ∃ s, input = s ++ rest ∧ Atom s v := by
  obtain ⟨s, hs, h⟩ := exists_leads_of_atom? h
  exact ⟨s, hs, h.atom⟩

theorem escape_iff {e : Char} : unescape e = some c ↔ Escape e c := by
  constructor
  · intro h
    unfold unescape at h
    split at h <;> cases h <;> constructor
  · rintro (_ | _ | _ | _ | _) <;> rfl

theorem exists_quoted_of_stringBody (h : stringBody input = .ok (t, rest)) :
    ∃ s, input = s ++ '"' :: rest ∧ Quoted s t := by
  fun_induction stringBody input generalizing t with
  | case1 => cases h
  | case2 =>
      cases h
      exact ⟨[], rfl, .nil⟩
  | case3 => cases h
  | case4 => cases h
  | case5 e input d he t' rest' hbody ih =>
      cases h
      obtain ⟨s, rfl, hs⟩ := ih hbody
      exact ⟨'\\' :: e :: s, rfl, .escape (escape_iff.mp he) hs⟩
  | case6 => cases h
  | case7 c input hq hlone hpair t' rest' hbody ih =>
      cases h
      have hb : c ≠ '\\' := by
        rintro rfl
        cases input with
        | nil => exact hlone rfl rfl
        | cons e input => exact hpair e input rfl rfl
      obtain ⟨s, rfl, hs⟩ := ih hbody
      exact ⟨c :: s, rfl, .plain hq hb hs⟩
  | case8 => cases h

theorem stringBody_of_quoted (h : Quoted s t) (rest : List Char) :
    stringBody (s ++ '"' :: rest) = .ok (t, rest) := by
  induction h with
  | nil => rfl
  | plain hq hb _ ih => simp [stringBody, hb, ih]
  | escape he _ ih => simp [stringBody, escape_iff.mpr he, ih]

theorem numeral?_eq_none {base : Nat} {p : Char → Bool} (sign : Int → Int)
    (h : ∀ c, input.head? = some c → p c = false) : numeral? base p sign input = none := by
  have htake := (takeWhile_append (s := []) (by simp) h).1
  rw [List.nil_append] at htake
  simp [numeral?, htake]

theorem hexadecimal?_eq_none (h : input.head? ≠ some '#') : hexadecimal? input = none := by
  unfold hexadecimal?
  split
  · exact absurd rfl h
  · rfl

theorem bool?_eq_none (h : input.head? ≠ some '#') : bool? input = none := by
  unfold bool?
  split
  · exact absurd rfl h
  · exact absurd rfl h
  · rfl

theorem isSymbolChar_of_isHexDigit (h : Number.isHexDigit c = true) : isSymbolChar c = true := by
  have hlt := Number.toNat_lt_of_isHexDigit h
  have halnum := Number.ascii_isAlphanum c.toNat hlt
  rw [Char.ofNat_toNat] at halnum
  simp [isSymbolChar, Text.isAlphanumeric_of_ascii hlt, halnum h]

theorem isSymbolChar_of_isDigit (h : c.isDigit = true) : isSymbolChar c = true :=
  isSymbolChar_of_isHexDigit (by simp [Number.isHexDigit, h])

theorem head_of_numeral {base n : Nat} {p : Char → Bool}
    (hp : ∀ {k c}, k < base ∧ c.toLower = k.digitChar ↔ p c = true ∧ Number.digit c = k)
    (h : Numeral base s n) : ∃ c t, s = c :: t ∧ p c = true := by
  obtain ⟨hne, hs, -⟩ := (Number.numeral_iff hp).mp h
  obtain ⟨c, t, rfl⟩ := List.exists_cons_of_ne_nil hne
  exact ⟨c, t, rfl, hs c (by simp)⟩

theorem head_of_symbol (h : Symbol s) : ∃ c t, s = c :: t ∧ isSymbolChar c = true := by
  obtain ⟨c, t, rfl⟩ := List.exists_cons_of_ne_nil h.ne_nil
  exact ⟨c, t, rfl, isSymbolChar_iff.mpr (h.chars c (by simp))⟩

theorem head_of_atom (h : Atom s v) :
    ∃ c t, s = c :: t ∧ (isSymbolChar c = true ∨ c = '#') := by
  cases h with
  | decimal h _ =>
      obtain ⟨c, t, rfl, hc⟩ := head_of_numeral Number.decimalDigit_iff h
      exact ⟨c, t, rfl, .inl (isSymbolChar_of_isDigit hc)⟩
  | negative h _ => exact ⟨_, _, rfl, .inl (by decide)⟩
  | symbol h =>
      obtain ⟨c, t, rfl, hc⟩ := head_of_symbol h
      exact ⟨c, t, rfl, .inl hc⟩
  | _ => exact ⟨_, _, rfl, .inr rfl⟩

theorem ne_of_isSymbolChar {c' : Char} (h : isSymbolChar c = true)
    (h' : isSymbolChar c' = false) : c ≠ c' := by
  rintro rfl
  rw [h] at h'
  cases h'

theorem symbolChar_of_numeral {base n : Nat} {p : Char → Bool}
    (hp : ∀ {k c}, k < base ∧ c.toLower = k.digitChar ↔ p c = true ∧ Number.digit c = k)
    (hs : ∀ {c}, p c = true → isSymbolChar c = true) (h : Numeral base s n) :
    ∀ c ∈ s, isSymbolChar c = true ∨ c = '#' :=
  fun c hc => .inl (hs (((Number.numeral_iff hp).mp h).2.1 c hc))

theorem symbolChar_of_atom (h : Atom s v) : ∀ c ∈ s, isSymbolChar c = true ∨ c = '#' := by
  cases h with
  | decimal h _ => exact symbolChar_of_numeral Number.decimalDigit_iff isSymbolChar_of_isDigit h
  | negative h _ =>
      have hs := symbolChar_of_numeral Number.decimalDigit_iff isSymbolChar_of_isDigit h
      exact List.forall_mem_cons.mpr ⟨.inl (by decide), hs⟩
  | hexadecimal hx h _ =>
      have hs := symbolChar_of_numeral Number.hexDigit_iff isSymbolChar_of_isHexDigit h
      refine List.forall_mem_cons.mpr ⟨.inr rfl, List.forall_mem_cons.mpr ⟨.inl ?_, hs⟩⟩
      rcases hx with rfl | rfl <;> decide
  | true | false =>
      refine List.forall_mem_cons.mpr ⟨.inr rfl, List.forall_mem_cons.mpr ⟨.inl (by decide), ?_⟩⟩
      exact fun _ hc => nomatch hc
  | symbol h => exact fun c hc => .inl (isSymbolChar_iff.mpr (h.chars c hc))

section

variable (h : Symbol s) (hrest : Stops SymbolChar rest)

include h hrest

theorem decimal?_eq_none_of_symbol : decimal? (s ++ rest) = none := by
  have hdigit {c : Char} {t : List Char} (hs : s = c :: t ∨ s = '-' :: c :: t) :
      c.isDigit = false := by
    rw [← Bool.not_eq_true, isDigit_iff]
    exact h.unlike_number c t hs
  obtain ⟨c, t, rfl⟩ := List.exists_cons_of_ne_nil h.ne_nil
  by_cases hsign : c = '-'
  · subst hsign
    rw [List.cons_append, decimal?_minus]
    refine numeral?_eq_none _ fun c' hc' => ?_
    cases t with
    | nil =>
        rw [← Bool.not_eq_true]
        exact fun hd => hrest c' hc' (isSymbolChar_iff.mp (isSymbolChar_of_isDigit hd))
    | cons c t =>
        cases hc'
        exact hdigit (.inr rfl)
  · rw [decimal?_of_head?_ne (by simpa using hsign)]
    refine numeral?_eq_none _ fun c' hc' => ?_
    cases hc'
    exact hdigit (.inl rfl)

theorem symbol?_of_symbol : symbol? (s ++ rest) = some (.symbol (String.ofList s), rest) := by
  have hchars (c : Char) (hc : c ∈ s) := isSymbolChar_iff.mpr (h.chars c hc)
  obtain ⟨htake, hdrop⟩ := takeWhile_append hchars
    fun c hc => Bool.eq_false_iff.mpr (mt isSymbolChar_iff.mp (hrest c hc))
  simp [symbol?, htake, hdrop, isSymbol_iff.mpr h]

end

theorem atom?_of_leads (h : Leads s v rest) : atom? (s ++ rest) = some (v, rest) := by
  unfold atom?
  cases h with
  | decimal h hm hrest =>
      obtain ⟨c, t, rfl, hc⟩ := head_of_numeral Number.decimalDigit_iff h
      have hsharp : (c :: t ++ rest).head? ≠ some '#' := by
        simpa using ne_of_isSymbolChar (isSymbolChar_of_isDigit hc) (by decide)
      have hminus : (c :: t ++ rest).head? ≠ some '-' := by
        have hne : c ≠ '-' := by
          rintro rfl
          exact absurd hc (by decide)
        simpa using hne
      rw [hexadecimal?_eq_none hsharp, decimal?_of_head?_ne hminus,
        numeral?_of_numeral Number.decimalDigit_iff h hm hrest]
      rfl
  | negative h hm hrest =>
      rw [List.cons_append, decimal?_minus, numeral?_of_numeral Number.decimalDigit_iff h hm hrest]
      rfl
  | hexadecimal hx h hm hrest =>
      rw [List.cons_append, List.cons_append, hexadecimal?_eq, if_pos hx,
        numeral?_of_numeral Number.hexDigit_iff h hm hrest]
      rfl
  | true => rfl
  | false => rfl
  | symbol h hrest =>
      obtain ⟨c, t, hs, hc⟩ := head_of_symbol h
      have hsharp : (s ++ rest).head? ≠ some '#' := by
        simpa [hs] using ne_of_isSymbolChar hc (by decide)
      rw [hexadecimal?_eq_none hsharp, decimal?_eq_none_of_symbol h hrest, bool?_eq_none hsharp,
        symbol?_of_symbol h hrest]
      rfl

theorem leads_of_atom (h : Atom s v) (hrest : Boundary rest) : Leads s v rest := by
  have hchar {c : Char} (hc : rest.head? = some c) := not_symbolChar_of_boundary (hrest c hc)
  have hdecimal : Stops (Digit 10) rest := by
    intro c hc
    rw [digit_iff Number.decimalDigit_iff, (hchar hc).2.2]
    exact Bool.false_ne_true
  have hhexadecimal : Stops (Digit 16) rest := by
    intro c hc
    rw [digit_iff Number.hexDigit_iff, (hchar hc).2.1]
    exact Bool.false_ne_true
  cases h with
  | decimal h hm => exact .decimal h hm hdecimal
  | negative h hm => exact .negative h hm hdecimal
  | hexadecimal hx h hm => exact .hexadecimal hx h hm hhexadecimal
  | true => exact .true rest
  | false => exact .false rest
  | symbol h =>
      refine .symbol h fun c hc => mt isSymbolChar_iff.mpr ?_
      rw [(hchar hc).1]
      exact Bool.false_ne_true

theorem atom?_of_atom (h : Atom s v) (hrest : Boundary rest) :
    atom? (s ++ rest) = some (v, rest) :=
  atom?_of_leads (leads_of_atom h hrest)

end Reader

end PassingLisp
