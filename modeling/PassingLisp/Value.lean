import PassingLisp.Env

namespace PassingLisp

inductive Mode where
  | value
  | delayed
  | dynamic
  | reference
  deriving DecidableEq

namespace Mode

def tag : Mode → Option String
  | value => none
  | delayed => some "delayed"
  | dynamic => some "dynamic"
  | reference => some "reference"

def ofTag (tag : String) : Option Mode :=
  if tag = "delayed" then some delayed
  else if tag = "dynamic" then some dynamic
  else if tag = "reference" then some reference
  else none

theorem ofTag_eq_some_iff {t : String} {m : Mode} : ofTag t = some m ↔ m.tag = some t := by
  cases m <;> grind [ofTag, tag]

end Mode

structure Param where
  name : String
  mode : Mode := .value
  deriving DecidableEq

/-- Code and data alike. A form is known by its name in the table of forms, a builtin by its place
in the registry of builtins, a delayed expression by the number it got when it was made. -/
inductive Value where
  | number (n : Int64)
  | symbol (name : String)
  | string (text : String)
  | bool (b : Bool)
  | list (elements : List Value)
  | builtin (name : String) (index : Nat)
  | procedure (params : List Param) (body : List Value) (env : Env)
  | form (name : String)
  | reference (name : String) (env : Env)
  | delayed (id : Nat) (expr : Value) (env : Env)
  | eof
  | unspecified
  deriving Inhabited

namespace Value

def isTrue : Value → Bool
  | bool b => b
  | _ => true

def symbol? : Value → Option String
  | symbol name => some name
  | _ => none

def isLiteral : Value → Bool
  | number _ | string _ | bool _ | unspecified => true
  | _ => false

mutual

def equal : Value → Value → Bool
  | number a, number b => a == b
  | symbol a, symbol b => a == b
  | string a, string b => a == b
  | bool a, bool b => a == b
  | list a, list b => equalAll a b
  | builtin a _, builtin b _ => a == b
  | procedure p a e, procedure q b d => p == q && equalAll a b && e == d
  | form a, form b => a == b
  | reference a e, reference b d => a == b && e == d
  | delayed i _ e, delayed j _ d => i == j && e == d
  | eof, eof => true
  | _, _ => false

def equalAll : List Value → List Value → Bool
  | [], [] => true
  | a :: as, b :: bs => equal a b && equalAll as bs
  | _, _ => false

end

@[simp] theorem isTrue_bool (b : Bool) : (bool b).isTrue = b := rfl

theorem isTrue_eq_false_iff {v : Value} : v.isTrue = false ↔ v = bool false := by
  cases v <;> simp [isTrue]

theorem symbol?_eq_some_iff {v : Value} {name : String} :
    v.symbol? = some name ↔ v = symbol name := by
  cases v <;> simp [symbol?]

end Value

end PassingLisp
