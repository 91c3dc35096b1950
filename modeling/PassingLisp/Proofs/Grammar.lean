import PassingLisp.Text.Alphanumeric
import PassingLisp.Value

namespace PassingLisp.Grammar

def Blanks (s : List Char) : Prop :=
  ∀ c ∈ s, c = ' ' ∨ c = '\t' ∨ c = '\r' ∨ c = '\n'

inductive Numeral (base : Nat) : List Char → Nat → Prop where
  | digit {c : Char} {k : Nat} (hk : k < base) (hc : c.toLower = k.digitChar) : Numeral base [c] k
  | snoc {s : List Char} {n : Nat} {c : Char} {k : Nat} (h : Numeral base s n) (hk : k < base)
      (hc : c.toLower = k.digitChar) : Numeral base (s ++ [c]) (n * base + k)

inductive Escape : Char → Char → Prop where
  | newline : Escape 'n' '\n'
  | tab : Escape 't' '\t'
  | return : Escape 'r' '\r'
  | backslash : Escape '\\' '\\'
  | quote : Escape '"' '"'

inductive Quoted : List Char → List Char → Prop where
  | nil : Quoted [] []
  | plain {c : Char} {s t : List Char} (hq : c ≠ '"') (hb : c ≠ '\\') (h : Quoted s t) :
      Quoted (c :: s) (c :: t)
  | escape {e c : Char} {s t : List Char} (he : Escape e c) (h : Quoted s t) :
      Quoted ('\\' :: e :: s) (c :: t)

def signs : List Char :=
  ['+', '-', '*', '/', '<', '>', '=', '!', '?', '_', '$', '.', '%', '&', ':', '^', '~']

structure Symbol (s : List Char) : Prop where
  ne_nil : s ≠ []
  chars : ∀ c ∈ s, Text.isAlphanumeric c = true ∨ c ∈ signs
  unlike_number : ∀ c t, s = c :: t ∨ s = '-' :: c :: t → ¬ ('0' ≤ c ∧ c ≤ '9')

inductive Atom : List Char → Value → Prop where
  | decimal {s : List Char} {n : Nat} {m : Int64} (h : Numeral 10 s n) (hm : m.toInt = n) :
      Atom s (.number m)
  | negative {s : List Char} {n : Nat} {m : Int64} (h : Numeral 10 s n) (hm : m.toInt = -n) :
      Atom ('-' :: s) (.number m)
  | hexadecimal {x : Char} {s : List Char} {n : Nat} {m : Int64} (hx : x = 'x' ∨ x = 'X')
      (h : Numeral 16 s n) (hm : m.toInt = n) : Atom ('#' :: x :: s) (.number m)
  | true : Atom ['#', 't'] (.bool true)
  | false : Atom ['#', 'f'] (.bool false)
  | symbol {s : List Char} (h : Symbol s) : Atom s (.symbol (String.ofList s))

def Digit (base : Nat) (c : Char) : Prop :=
  ∃ k < base, c.toLower = k.digitChar

def SymbolChar (c : Char) : Prop :=
  Text.isAlphanumeric c = true ∨ c ∈ signs

def Stops (p : Char → Prop) (t : List Char) : Prop :=
  ∀ c, t.head? = some c → ¬ p c

/-- An atom and the text right behind it, which does not start with more of the same atom. -/
inductive Leads : List Char → Value → List Char → Prop where
  | decimal {s t : List Char} {n : Nat} {m : Int64} (h : Numeral 10 s n) (hm : m.toInt = n)
      (ht : Stops (Digit 10) t) : Leads s (.number m) t
  | negative {s t : List Char} {n : Nat} {m : Int64} (h : Numeral 10 s n) (hm : m.toInt = -n)
      (ht : Stops (Digit 10) t) : Leads ('-' :: s) (.number m) t
  | hexadecimal {x : Char} {s t : List Char} {n : Nat} {m : Int64} (hx : x = 'x' ∨ x = 'X')
      (h : Numeral 16 s n) (hm : m.toInt = n) (ht : Stops (Digit 16) t) :
      Leads ('#' :: x :: s) (.number m) t
  | true (t : List Char) : Leads ['#', 't'] (.bool true) t
  | false (t : List Char) : Leads ['#', 'f'] (.bool false) t
  | symbol {s t : List Char} (h : Symbol s) (ht : Stops SymbolChar t) :
      Leads s (.symbol (String.ofList s)) t

theorem Leads.atom {s t : List Char} {v : Value} (h : Leads s v t) : Atom s v := by
  cases h with
  | decimal h hm _ => exact .decimal h hm
  | negative h hm _ => exact .negative h hm
  | hexadecimal hx h hm _ => exact .hexadecimal hx h hm
  | true => exact .true
  | false => exact .false
  | symbol h _ => exact .symbol h

inductive Separated : List (List Char) → List Char → Prop where
  | nil : Separated [] []
  | one (s : List Char) : Separated [s] s
  | cons {s s' b t : List Char} {ss : List (List Char)} (hb : Blanks b) (hne : b ≠ [])
      (h : Separated (s' :: ss) t) : Separated (s :: s' :: ss) (s ++ b ++ t)

inductive Sexpr : Nat → List Char → Value → Prop where
  | atom {d : Nat} {b s : List Char} {v : Value} (hd : d ≤ 31) (hb : Blanks b) (h : Atom s v) :
      Sexpr d (b ++ s) v
  | string {d : Nat} {b s t : List Char} (hd : d ≤ 31) (hb : Blanks b) (h : Quoted s t) :
      Sexpr d (b ++ '"' :: (s ++ ['"'])) (.string (String.ofList t))
  | quote {d : Nat} {b s : List Char} {v : Value} (hd : d ≤ 30) (hb : Blanks b)
      (h : Sexpr (d + 1) s v) : Sexpr d (b ++ '\'' :: s) (.list [.symbol "quote", v])
  | list {d : Nat} {b before s after : List Char} {items : List (List Char × Value)}
      (hd : d ≤ 30) (hb : Blanks b) (hbefore : Blanks before) (hafter : Blanks after)
      (hs : Separated (items.map (·.1)) s) (hi : ∀ i ∈ items, Sexpr (d + 1) i.1 i.2) :
      Sexpr d (b ++ '(' :: (before ++ s ++ after ++ [')'])) (.list (items.map (·.2)))

def Expression (s : List Char) (v : Value) : Prop :=
  ∃ t b, s = t ++ b ∧ Sexpr 0 t v ∧ Blanks b

end PassingLisp.Grammar
