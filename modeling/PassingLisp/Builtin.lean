import PassingLisp.Arity
import PassingLisp.Value.Printer

namespace PassingLisp

structure Reply where
  result : Except Error Value
  output : String := ""

structure Builtin where
  arity : Arity
  run : List Value → Reply

namespace Reply

def value (v : Value) : Reply := ⟨.ok v, ""⟩

def error (e : Error) : Reply := ⟨.error e, ""⟩

def ofExcept (r : Except Error Value) : Reply := ⟨r, ""⟩

def print (text : String) : Reply := ⟨.ok .unspecified, text⟩

end Reply

namespace Builtin

def call (b : Builtin) (args : List Value) : Reply :=
  match b.arity.check args.length with
  | .ok _ => b.run args
  | .error e => .error e

end Builtin

namespace Value

def toNumber (v : Value) : Except Error Int64 :=
  match v with
  | number n => .ok n
  | v => .error (.type ("expected number, got " ++ v.text))

def toList (v : Value) : Except Error (List Value) :=
  match v with
  | list vs => .ok vs
  | v => .error (.type ("expected list, got " ++ v.text))

theorem toNumber_eq_ok_iff {v : Value} {n : Int64} : v.toNumber = .ok n ↔ v = number n := by
  cases v <;> simp [toNumber]

theorem toList_eq_ok_iff {v : Value} {vs : List Value} : v.toList = .ok vs ↔ v = list vs := by
  cases v <;> simp [toList]

end Value

end PassingLisp
