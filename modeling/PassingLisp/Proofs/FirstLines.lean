import PassingLisp.Proofs.Completion

namespace PassingLisp

open Grammar

namespace Text

variable {c : Char} {b s t : List Char}

def lastInk (s : List Char) : Option Char :=
  (skipBlank s.reverse).head?

theorem lastInk_append (s t : List Char) : lastInk (s ++ t) = (lastInk t).or (lastInk s) := by
  unfold lastInk skipBlank
  rw [List.reverse_append, List.dropWhile_append]
  cases List.dropWhile isBlank t.reverse <;> rfl

theorem lastInk_singleton (h : isBlank c = false) : lastInk [c] = some c := by
  simp [lastInk, skipBlank_eq_self h]

theorem lastInk_of_blanks (hb : Blanks b) : lastInk b = none := by
  have hreverse : skipBlank b.reverse = [] :=
    skipBlank_eq_nil_iff.mpr fun c hc => hb c (List.mem_reverse.mp hc)
  rw [lastInk, hreverse]
  rfl

theorem lastInk_append_of_not_blanks (ht : ¬ Blanks t) (s : List Char) :
    lastInk (s ++ t) = lastInk t := by
  have hne : lastInk t ≠ none := by
    intro h
    rw [lastInk, List.head?_eq_none_iff, skipBlank_eq_nil_iff] at h
    exact ht fun c hc => h c (List.mem_reverse.mpr hc)
  obtain ⟨c, hc⟩ := Option.ne_none_iff_exists'.mp hne
  rw [lastInk_append, hc]
  rfl

end Text

namespace Reader

variable {d level fuel : Nat} {input p s t b rest left left' : List Char} {v : Value}
  {vs ws : List Value} {f f' : Fault} {item : Reader Value} {found : Value × List Char}

theorem exists_lastInk_of_sexpr (h : Sexpr d s v) :
    ∃ c, Text.lastInk s = some c ∧ c ≠ '\'' := by
  have hback {s t : List Char} (ht : ∃ c, Text.lastInk t = some c ∧ c ≠ '\'') :
      ∃ c, Text.lastInk (s ++ t) = some c ∧ c ≠ '\'' := by
    obtain ⟨c, hc, hne⟩ := ht
    exact ⟨c, by rw [Text.lastInk_append, hc, Option.some_or], hne⟩
  induction h with
  | @atom d b s v hd hb h =>
      refine hback ?_
      obtain ⟨c, t, rfl, -⟩ := head_of_atom h
      have hlast : (c :: t).getLast (by simp) ∈ c :: t := List.getLast_mem _
      have hchar := symbolChar_of_atom h _ hlast
      rw [← List.dropLast_concat_getLast (l := c :: t) (by simp)]
      refine hback ⟨_, Text.lastInk_singleton (isBlank_eq_false_of_head hchar), ?_⟩
      rcases hchar with hchar | hchar
      · exact ne_of_isSymbolChar hchar (by decide)
      · rw [hchar]
        decide
  | string hd hb h => exact hback (t := '"' :: _) (hback (s := ['"']) (hback ⟨'"', by decide⟩))
  | quote hd hb h ih => exact hback (t := '\'' :: _) (hback (s := ['\'']) ih)
  | list hd hb hbefore hafter hs hi ih =>
      exact hback (t := '(' :: _) (hback (s := ['(']) (hback ⟨')', by decide⟩))

/-- Outside of strings, a quote mark is the last thing in the text. -/
def Dangling (s : List Char) : Prop :=
  Comment.after .code s = .code ∧ Text.lastInk s = some '\''

structure Settled (s : List Char) : Prop where
  clear : Comment.Clear s
  ink : Text.lastInk s ≠ some '\''

namespace Settled

theorem of_blanks (hb : Blanks b) : Settled b where
  clear := .of_blanks hb
  ink := by simp [Text.lastInk_of_blanks hb]

theorem of_sexpr (h : Sexpr d s v) : Settled s where
  clear := .of_sexpr h
  ink := by
    obtain ⟨c, hc, hne⟩ := exists_lastInk_of_sexpr h
    simpa [hc] using hne

theorem append (hs : Settled s) (ht : Settled t) : Settled (s ++ t) where
  clear := hs.clear.append ht.clear
  ink := by
    have hs := hs.ink
    have ht := ht.ink
    rw [Text.lastInk_append]
    cases h : Text.lastInk t with
    | none => exact hs
    | some c => rwa [h] at ht

theorem dangling_append_iff (hs : Settled s) : Dangling (s ++ t) ↔ Dangling t := by
  have hink := hs.ink
  rw [Dangling, Dangling, hs.clear.after_append, Text.lastInk_append]
  cases Text.lastInk t <;> simp [hink]

theorem not_dangling (hs : Settled s) : ¬ Dangling s := fun h => hs.ink h.2

end Settled

theorem dangling_quote_iff (hs : ¬ Blanks s) : Dangling ('\'' :: s) ↔ Dangling s := by
  have hink : Text.lastInk ('\'' :: s) = Text.lastInk s :=
    Text.lastInk_append_of_not_blanks hs ['\'']
  rw [Dangling, Dangling, hink]
  rfl

theorem dangling_of_blanks (hb : Blanks b) : Dangling ('\'' :: b) := by
  have hink : Text.lastInk ('\'' :: b) = (Text.lastInk b).or (Text.lastInk ['\'']) :=
    Text.lastInk_append ['\''] b
  refine ⟨(Comment.Clear.of_blanks hb).after_eq, ?_⟩
  rw [hink, Text.lastInk_of_blanks hb]
  rfl

def Broken (s : List Char) (f : Fault) : Prop :=
  (Dangling s ∧ f.cause = .invalidSyntax) ∨ (¬ Dangling s ∧ f = .unclosed [])

namespace Broken

theorem append_iff (hp : Settled p) : Broken (p ++ s) f ↔ Broken s f := by
  rw [Broken, Broken, hp.dangling_append_iff]

theorem of_not_final (h : Broken s f) (hf : f.isFinal = false) (hf' : f'.cause = .invalidSyntax) :
    Broken s f' := by
  rcases h with ⟨hs, -⟩ | ⟨-, rfl⟩
  · exact .inl ⟨hs, hf'⟩
  · cases hf

theorem quote (hs : ¬ Blanks s) (h : Broken s f) : Broken ('\'' :: s) f := by
  rwa [Broken, dangling_quote_iff hs]

end Broken

inductive Chain (item : Reader Value) : List Char → List Value → List Char → Prop where
  | nil (s : List Char) : Chain item s [] s
  | cons {s rest left : List Char} {v : Value} {vs : List Value} (hv : item s = .ok (v, rest))
      (h : Chain item rest vs left) : Chain item s (v :: vs) left

def Persists (t : List Char) (item : Reader Value) : Prop :=
  ∀ ⦃s v rest⦄, item s = .ok (v, rest) → item (s ++ t) = .ok (v, rest ++ t)

namespace Chain

theorem of_items (h : Items s vs left) : Chain (datum maxNesting) s vs left := by
  induction h with
  | nil s => exact .nil s
  | cons hv _ ih => exact .cons hv ih

theorem append_right (ht : Persists t item) (h : Chain item s vs left) :
    Chain item (s ++ t) vs (left ++ t) := by
  induction h with
  | nil s => exact .nil _
  | cons hv _ ih => exact .cons (ht hv) ih

theorem resume (h : Chain item s vs left) (h' : Chain item s ws left')
    (hf : item left' = .error f) : ∃ us, Chain item left us left' := by
  induction h generalizing ws with
  | nil s => exact ⟨ws, h'⟩
  | cons hv _ ih =>
      cases h' with
      | nil s => simp [hf] at hv
      | cons hv' h' =>
          rw [hv] at hv'
          cases hv'
          exact ih h'

theorem exists_settled (hitem : ∀ ⦃s v rest⦄, item s = .ok (v, rest) →
    ∃ p, s = p ++ rest ∧ Settled p) (h : Chain item s vs left) :
    ∃ p, s = p ++ left ∧ Settled p := by
  induction h with
  | nil s => exact ⟨[], rfl, .of_blanks Text.blanks_nil⟩
  | cons hv _ ih =>
      obtain ⟨p, rfl, hp⟩ := hitem hv
      obtain ⟨p', rfl, hp'⟩ := ih
      exact ⟨p ++ p', (List.append_assoc ..).symm, hp.append hp'⟩

theorem of_many (hitem : ∀ ⦃s v rest⦄, item s = .ok (v, rest) → rest.length < s.length)
    (hnil : ∃ f, item [] = .error f ∧ f.isFinal = false) (hfuel : s.length ≤ fuel) :
    ∃ vs left f, Chain item s vs left ∧ item left = .error f ∧
      many item fuel s = if f.isFinal then .error f else .ok (vs, left) := by
  induction fuel generalizing s with
  | zero =>
      obtain rfl := List.length_eq_zero_iff.mp (Nat.le_zero.mp hfuel)
      obtain ⟨f, hf, hfinal⟩ := hnil
      refine ⟨[], [], f, .nil [], hf, ?_⟩
      rw [many, hfinal]
      rfl
  | succ fuel ih =>
      cases hs : item s with
      | error f =>
          refine ⟨[], s, f, .nil s, hs, ?_⟩
          rw [many, hs]
      | ok found =>
          obtain ⟨v, rest⟩ := found
          have hlt := hitem hs
          obtain ⟨vs, left, f, h, hf, hmany⟩ := ih (s := rest) (by omega)
          refine ⟨v :: vs, left, f, .cons hs h, hf, ?_⟩
          simp only [many, hs, hmany]
          cases f.isFinal <;> rfl

end Chain

def gapped (item : Reader Value) : Reader Value := fun input =>
  if input.head?.any Text.isBlank then item (Text.skipBlank input) else .error (.malformed input)

theorem separated_eq_many (item : Reader Value) (fuel : Nat) (input : List Char) :
    separated item fuel input = many (gapped item) fuel input := by
  induction fuel generalizing input with
  | zero => rfl
  | succ fuel ih =>
      rw [separated, many, gapped]
      split
      · simp only [ih]
      · rfl

theorem gapped_eq_ok_iff : gapped item s = .ok found ↔
    s.head?.any Text.isBlank = true ∧ item (Text.skipBlank s) = .ok found := by
  unfold gapped
  split <;> simp [*]

def close (vs : List Value) (left : List Char) : Except Fault (Value × List Char) :=
  match Text.skipBlank left with
  | ')' :: rest => .ok (.list vs, rest)
  | rest => .error (.unclosed rest)

section

variable (hitem : Sound d item)

include hitem

theorem exists_of_gapped (h : gapped item s = .ok (v, rest)) :
    ∃ b u, s = b ++ u ++ rest ∧ Blanks b ∧ b ≠ [] ∧ Sexpr d u v := by
  obtain ⟨hblank, hv⟩ := gapped_eq_ok_iff.mp h
  obtain ⟨b, hb, hne, hs⟩ := Text.exists_blanks_of_head hblank
  obtain ⟨u, hu, hsexpr⟩ := hitem hv
  exact ⟨b, u, by rw [hs, hu, List.append_assoc], hb, hne, hsexpr⟩

theorem persists_gapped (ht : Persists t item) : Persists t (gapped item) := by
  intro s v rest h
  obtain ⟨hblank, hv⟩ := gapped_eq_ok_iff.mp h
  have hskip : Text.skipBlank s ≠ [] := by
    obtain ⟨u, hu, hsexpr⟩ := hitem hv
    rw [hu]
    simp [sexpr_ne_nil hsexpr]
  refine gapped_eq_ok_iff.mpr ⟨?_, ?_⟩
  · cases s with
    | nil => cases hblank
    | cons c s => exact hblank
  · rw [Text.skipBlank_append_of_ne_nil hskip]
    exact ht hv

theorem exists_chain_of_listBody (input : List Char) :
    ∃ vs left f, Chain (gapped item) (' ' :: input) vs left ∧ gapped item left = .error f ∧
      listBody item input = if f.isFinal then .error f else close vs left := by
  have hskip : Text.skipBlank (' ' :: input) = Text.skipBlank input := rfl
  cases hs : item (Text.skipBlank input) with
  | error f =>
      refine ⟨[], ' ' :: input, f, .nil _, hs, ?_⟩
      simp only [listBody, elements, hs]
      cases f.isFinal with
      | true => rfl
      | false =>
          simp only [Bool.false_eq_true, if_false, Text.skipBlank_skipBlank]
          rfl
  | ok found =>
      obtain ⟨v, rest⟩ := found
      have hlt ⦃s v rest⦄ (h : gapped item s = .ok (v, rest)) : rest.length < s.length := by
        obtain ⟨b, u, rfl, -, hne, -⟩ := exists_of_gapped hitem h
        have hpos := List.length_pos_iff.mpr hne
        simp only [List.length_append]
        omega
      obtain ⟨vs, left, f, h, hf, hmany⟩ := Chain.of_many hlt ⟨_, rfl, rfl⟩ (le_refl rest.length)
      refine ⟨v :: vs, left, f, .cons (s := ' ' :: input) hs h, hf, ?_⟩
      simp only [listBody, elements, hs, separated_eq_many, hmany]
      cases f.isFinal <;> rfl

end

section

variable {r : List Char}

theorem persists_datum (hd : d + level = 32) : Persists ('\n' :: r) (datum level) :=
  fun _ _ _ h => datum_append (boundary_newline r) hd h

def Breaks (r : List Char) (item : Reader Value) : Prop :=
  ∀ ⦃s f found⦄, ¬ Blanks s → item s = .error f → item (s ++ '\n' :: r) = .ok found → Broken s f

theorem Breaks.gapped (h : Breaks r item) : Breaks r (gapped item) := by
  intro s f found hs hf hfound
  obtain ⟨hblank, hitem⟩ := gapped_eq_ok_iff.mp hfound
  rw [Text.skipBlank_append_of_ne_nil (mt Text.skipBlank_eq_nil_iff.mp hs)] at hitem
  have hhead : s.head?.any Text.isBlank = true := by
    cases s with
    | nil => exact absurd Text.blanks_nil hs
    | cons c s => exact hblank
  have hf' : item (Text.skipBlank s) = .error f := by
    rw [Reader.gapped, if_pos hhead] at hf
    exact hf
  have hs' : ¬ Blanks (Text.skipBlank s) := by
    rwa [← Text.skipBlank_eq_nil_iff, Text.skipBlank_skipBlank, Text.skipBlank_eq_nil_iff]
  obtain ⟨b, hb, hs⟩ := Text.exists_blanks s
  rw [hs, Broken.append_iff (.of_blanks hb)]
  exact h hs' hf' hitem

theorem exists_chain_of_ok (hitem : Sound d item) (h : listBody item input = .ok found) :
    ∃ vs left f rest, Chain (gapped item) (' ' :: input) vs left ∧ gapped item left = .error f ∧
      Text.skipBlank left = ')' :: rest := by
  obtain ⟨vs, left, f, hchain, hf, hbody⟩ := exists_chain_of_listBody hitem input
  rw [h] at hbody
  split at hbody
  · cases hbody
  · unfold close at hbody
    split at hbody
    · rename_i rest hclose
      exact ⟨vs, left, f, rest, hchain, hf, hclose⟩
    · cases hbody

theorem exists_chain_of_error (hitem : Sound d item) (h : listBody item input = .error f) :
    ∃ vs left f', Chain (gapped item) (' ' :: input) vs left ∧ gapped item left = .error f' ∧
      (f'.isFinal = true ∧ f = f' ∨
        f'.isFinal = false ∧ (∀ rest, Text.skipBlank left ≠ ')' :: rest) ∧
          f = .unclosed (Text.skipBlank left)) := by
  obtain ⟨vs, left, f', hchain, hf, hbody⟩ := exists_chain_of_listBody hitem input
  refine ⟨vs, left, f', hchain, hf, ?_⟩
  rw [h] at hbody
  split at hbody
  · rename_i hfinal
    cases hbody
    exact .inl ⟨hfinal, rfl⟩
  · rename_i hfinal
    unfold close at hbody
    split at hbody
    · cases hbody
    · rename_i hopen
      cases hbody
      exact .inr ⟨Bool.eq_false_iff.mpr hfinal, hopen, rfl⟩

theorem not_final_of_malformed {s : List Char}
    (h : datum level (Text.skipBlank left) = .error (.malformed s))
    (hf : gapped (datum level) left = .error f) : f.isFinal = false := by
  unfold gapped at hf
  split at hf
  · rw [h] at hf
    cases hf
    rfl
  · cases hf
    rfl

theorem broken_of_listBody (hd : d + level = 31) (hbreaks : Breaks r (datum level))
    (h : listBody (datum level) input = .error f)
    (hlong : listBody (datum level) (input ++ '\n' :: r) = .ok found) : Broken input f := by
  have hsound : Sound (d + 1) (datum level) := sound_datum (by omega)
  obtain _ | level := level
  · rw [listBody_datum_zero] at hlong
    cases hlong
  obtain ⟨vs, left, f', hchain, hstop, hend⟩ := exists_chain_of_error hsound h
  obtain ⟨ws, left', f'', rest, hchain', hstop', hclose⟩ := exists_chain_of_ok hsound hlong
  have hpersists := persists_gapped hsound (persists_datum (r := r) (d := d + 1) (by omega))
  obtain ⟨us, hmore⟩ := (hchain.append_right hpersists).resume hchain' hstop'
  obtain ⟨p, hp, hsettled⟩ := hchain.exists_settled fun s v rest h => by
    obtain ⟨b, u, rfl, hb, -, hu⟩ := exists_of_gapped hsound h
    exact ⟨b ++ u, rfl, (Settled.of_blanks hb).append (.of_sexpr hu)⟩
  have hblank : Settled [' '] := .of_blanks (by simp [Blanks])
  rw [← Broken.append_iff hblank, List.singleton_append, hp, Broken.append_iff hsettled]
  by_cases hb : Blanks left
  · have hskip := Text.skipBlank_eq_nil_iff.mpr hb
    have hmalformed : datum (level + 1) (Text.skipBlank left) = .error (.malformed []) := by
      rw [hskip]
      rfl
    have hfinal := not_final_of_malformed hmalformed hstop
    rw [hfinal, hskip] at hend
    refine .inr ⟨(Settled.of_blanks hb).not_dangling, ?_⟩
    simpa using hend
  · have hskip := mt Text.skipBlank_eq_nil_iff.mp hb
    cases hmore with
    | nil =>
        rw [Text.skipBlank_append_of_ne_nil hskip] at hclose
        obtain ⟨c, rest', hleft⟩ := List.exists_cons_of_ne_nil hskip
        obtain rfl : c = ')' := by
          rw [hleft] at hclose
          exact (List.cons.inj hclose).1
        have hmalformed := datum_close level rest'
        rw [← hleft] at hmalformed
        have hfinal := not_final_of_malformed hmalformed hstop
        simp [hfinal, hleft] at hend
    | cons hv _ =>
        have hbroken := hbreaks.gapped hb hstop hv
        rcases hend with ⟨-, rfl⟩ | ⟨hfinal, -, rfl⟩
        · exact hbroken
        · refine hbroken.of_not_final hfinal ?_
          simp [Fault.cause, Fault.rest, hskip]

theorem broken_of_stringBody {text : List Char × List Char} (h : stringBody input = .error f)
    (hlong : stringBody (input ++ '\n' :: r) = .ok text) :
    f = .unclosed [] ∧ Comment.after .string input = .string := by
  fun_induction stringBody input generalizing text with
  | case1 =>
      cases h
      exact ⟨rfl, rfl⟩
  | case2 => cases h
  | case3 => cases hlong
  | case4 e input he => simp [stringBody, he] at hlong
  | case5 => cases h
  | case6 e input d he f' hbody ih =>
      cases hlong' : stringBody (input ++ '\n' :: r) with
      | ok text => exact ih (hbody.trans h) hlong'
      | error f => simp [stringBody, he, hlong'] at hlong
  | case7 => cases h
  | case8 c input hq hlone hpair f' hbody ih =>
      have hb : c ≠ '\\' := by
        rintro rfl
        cases input with
        | nil => exact hlone rfl rfl
        | cons e input => exact hpair e input rfl rfl
      have hnext : Comment.next .string c = .string := by simp [Comment.next]
      rw [Comment.after_cons, hnext]
      cases hlong' : stringBody (input ++ '\n' :: r) with
      | ok text => exact ih (hbody.trans h) hlong'
      | error f => simp [stringBody, hb, hlong'] at hlong

theorem broken_of_quote (hbreaks : Breaks r (datum level))
    (h : datumWith (datum level) ('\'' :: input) = .error f)
    (hlong : datumWith (datum level) ('\'' :: (input ++ '\n' :: r)) = .ok found) :
    Broken ('\'' :: input) f := by
  simp only [datumWith] at h hlong
  split at hlong
  · rename_i v rest hv
    split at h
    · cases h
    · rename_i f' hf'
      by_cases hb : Blanks input
      · obtain _ | level := level
        · cases hv
        · rw [datum, Text.skipBlank_eq_nil_iff.mpr hb] at hf'
          cases hf'
          cases h
          exact .inl ⟨dangling_of_blanks hb, rfl⟩
      · have hbroken := (hbreaks hb hf' hv).quote hb
        split at h
        · cases h
          exact hbroken
        · rename_i hfinal
          cases h
          exact hbroken.of_not_final (Bool.eq_false_iff.mpr hfinal) rfl
  · split at hlong <;> cases hlong

theorem broken_of_string (h : datumWith item ('"' :: input) = .error f)
    (hlong : datumWith item ('"' :: (input ++ '\n' :: r)) = .ok found) :
    Broken ('"' :: input) f := by
  simp only [datumWith] at h hlong
  split at h
  · cases h
  · rename_i f' hbody
    cases h
    split at hlong
    · rename_i text rest hbody'
      obtain ⟨rfl, hafter⟩ := broken_of_stringBody hbody hbody'
      refine .inr ⟨fun hdangling => ?_, rfl⟩
      have hcode : Comment.after .string input = .code := hdangling.1
      rw [hafter] at hcode
      cases hcode
    · cases hlong

theorem breaks_datum (r : List Char) (hd : d + level = 32) : Breaks r (datum level) := by
  induction level generalizing d with
  | zero =>
      intro s f found _ _ hlong
      cases hlong
  | succ level ih =>
      have ih : Breaks r (datum level) := ih (d := d + 1) (by omega)
      intro input f found hs h hlong
      have hskip := mt Text.skipBlank_eq_nil_iff.mp hs
      obtain ⟨b, hb, hinput⟩ := Text.exists_blanks input
      rw [datum] at h
      rw [datum, Text.skipBlank_append_of_ne_nil hskip] at hlong
      generalize Text.skipBlank input = s at h hlong hinput hskip
      subst hinput
      rw [Broken.append_iff (.of_blanks hb)]
      unfold datumWith at h
      split at h
      · exact broken_of_quote ih h hlong
      · have hsettled : Settled ['('] := ⟨⟨rfl, rfl⟩, by decide⟩
        have hbody := broken_of_listBody (d := d) (by omega) ih h hlong
        exact (Broken.append_iff hsettled).mpr hbody
      · exact broken_of_string h hlong
      · rename_i hquote hopen hstring
        split at h
        · cases h
        · rename_i hatom
          have hnone := atom?_append (boundary_newline r) s
          rw [hatom] at hnone
          obtain ⟨c, s, rfl⟩ := List.exists_cons_of_ne_nil hskip
          have hne (c' : Char) (h : ∀ rest, c :: s = c' :: rest → False) : c ≠ c' :=
            fun heq => h s (heq ▸ rfl)
          rw [List.cons_append] at hnone hlong
          rw [datumWith_of_ne (hne _ hquote) (hne _ hopen) (hne _ hstring), hnone] at hlong
          cases hlong

theorem exists_settled_of_items (h : Items s vs left) : ∃ p, s = p ++ left ∧ Settled p := by
  refine (Chain.of_items h).exists_settled fun s v rest hv => ?_
  obtain ⟨p, hp, hsexpr⟩ := sound_datum (d := 0) rfl hv
  exact ⟨p, hp, .of_sexpr hsexpr⟩

theorem not_dangling_of_sequence (h : sequence s = .ok vs) : ¬ Dangling s := by
  obtain ⟨left, hitems, hb⟩ := exists_items_of_sequence h
  obtain ⟨p, rfl, hp⟩ := exists_settled_of_items hitems
  exact (hp.append (.of_blanks hb)).not_dangling

theorem broken_of_sequence {e : ParseError} (h : sequence s = .error e)
    (hlong : sequence (s ++ '\n' :: r) = .ok vs) : ∃ f, Broken s f ∧ e.kind = f.cause := by
  obtain ⟨ws, left, f, hitems, hf, hb, hkind⟩ := exists_items_of_error h
  obtain ⟨left', hitems', hb'⟩ := exists_items_of_sequence hlong
  obtain ⟨p, rfl, hp⟩ := exists_settled_of_items hitems
  refine ⟨f, (Broken.append_iff hp).mpr ?_, hkind⟩
  have hmore := Chain.of_items (hitems.append_right (boundary_newline r))
  obtain ⟨us, hmore⟩ := hmore.resume (Chain.of_items hitems') (datum_of_blanks hb')
  cases hmore with
  | nil => exact absurd (fun c hc => hb' c (List.mem_append_left _ hc)) hb
  | cons hv _ => exact breaks_datum (d := 0) r rfl hb hf hv

end

theorem exists_strip_append (q r : List Char) :
    ∃ r', Comment.strip (q ++ '\n' :: r) = Comment.strip q ++ '\n' :: r' := by
  have hline (place : Comment.Place) :
      ∃ r', Comment.stripFrom place ('\n' :: r) = '\n' :: r' := by
    cases place <;> exact ⟨_, rfl⟩
  obtain ⟨r', hr'⟩ := hline (Comment.after .code (Comment.strip q))
  exact ⟨r', by rw [Comment.strip_seam, hr']⟩

theorem program_first_lines (comments : Bool) (q r : List Char) (vs : List Value)
    (h : program comments (q ++ '\n' :: r) = .ok vs) :
    (((∃ ws, program comments q = .ok ws) ∨
        ∃ e, program comments q = .error e ∧ e.kind = .incomplete) ↔
      ¬ Dangling (if comments then Comment.strip q else q)) ∧
    (Dangling (if comments then Comment.strip q else q) →
      ∃ e, program comments q = .error e ∧ e.kind = .invalidSyntax) := by
  unfold program at h ⊢
  generalize hs : (if comments then Comment.strip q else q) = s
  obtain ⟨r', hlong⟩ : ∃ r', (if comments then Comment.strip (q ++ '\n' :: r)
      else q ++ '\n' :: r) = s ++ '\n' :: r' := by
    subst hs
    cases comments with
    | false => exact ⟨r, rfl⟩
    | true => exact exists_strip_append q r
  rw [hlong] at h
  cases hread : sequence s with
  | ok ws =>
      have hs := not_dangling_of_sequence hread
      exact ⟨⟨fun _ => hs, fun _ => .inl ⟨ws, rfl⟩⟩, fun hdangling => absurd hdangling hs⟩
  | error e =>
      obtain ⟨f, ⟨hs, hf⟩ | ⟨hs, rfl⟩, hkind⟩ := broken_of_sequence hread h
      · rw [hf] at hkind
        refine ⟨⟨?_, fun hsettled => absurd hs hsettled⟩, fun _ => ⟨e, rfl, hkind⟩⟩
        rintro (⟨ws, hws⟩ | ⟨e', he', hincomplete⟩)
        · cases hws
        · cases he'
          rw [hkind] at hincomplete
          cases hincomplete
      · exact ⟨⟨fun _ => hs, fun _ => .inr ⟨e, rfl, hkind⟩⟩, fun hdangling => absurd hdangling hs⟩

theorem program_first_lines_remark :
    program true ("(a ; '".toList ++ '\n' :: "b)".toList) =
        .ok [.list [.symbol "a", .symbol "b"]] ∧
      ¬ Dangling (Comment.strip "(a ; '".toList) ∧
      ((∃ ws, program true "(a ; '".toList = .ok ws) ∨
        ∃ e, program true "(a ; '".toList = .error e ∧ e.kind = .incomplete) := by
  have h : program true ("(a ; '".toList ++ '\n' :: "b)".toList) =
      .ok [.list [.symbol "a", .symbol "b"]] := by rfl
  have hs : ¬ Dangling (Comment.strip "(a ; '".toList) := fun hdangling =>
    absurd hdangling.2 (by decide)
  exact ⟨h, hs, (program_first_lines true _ _ _ h).1.mpr hs⟩

theorem program_quote_mark :
    program false ("'".toList ++ '\n' :: "x".toList) =
        .ok [.list [.symbol "quote", .symbol "x"]] ∧
      ¬ ((∃ ws, program false "'".toList = .ok ws) ∨
        ∃ e, program false "'".toList = .error e ∧ e.kind = .incomplete) := by
  have herror : program false "'".toList =
      .error (leftover "'".toList "'".toList) := by rfl
  refine ⟨by rfl, ?_⟩
  rintro (⟨ws, hws⟩ | ⟨e, he, hincomplete⟩)
  · rw [herror] at hws
    cases hws
  · rw [herror] at he
    cases he
    cases hincomplete

end Reader

end PassingLisp
