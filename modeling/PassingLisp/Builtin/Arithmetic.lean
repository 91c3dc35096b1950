import PassingLisp.Builtin
import PassingLisp.Number

namespace PassingLisp.Arithmetic

def checked (operation : String) (n : Int) : Except Error Int64 :=
  match Number.ofInt? n with
  | some m => .ok m
  | none => .error (.evaluation ("Integer overflow in " ++ operation))

def accumulate (operation : String) (op : Int → Int → Int) :
    Int64 → List Value → Except Error Int64
  | acc, [] => .ok acc
  | acc, v :: vs =>
      match v.toNumber with
      | .error e => .error e
      | .ok n =>
          match checked operation (op acc.toInt n.toInt) with
          | .error e => .error e
          | .ok acc => accumulate operation op acc vs

def add (args : List Value) : Except Error Value :=
  (accumulate "addition" (· + ·) 0 args).map .number

def multiply (args : List Value) : Except Error Value :=
  (accumulate "multiplication" (· * ·) 1 args).map .number

def subtract : List Value → Except Error Value
  | [] => .error (.arity 1 0)
  | first :: rest =>
      match first.toNumber with
      | .error e => .error e
      | .ok n =>
          match rest with
          | [] => (checked "negation" (-n.toInt)).map .number
          | rest => (accumulate "subtraction" (· - ·) n rest).map .number

def select (better : Int64 → Int64 → Int64) : Int64 → List Value → Except Error Int64
  | best, [] => .ok best
  | best, v :: vs =>
      match v.toNumber with
      | .error e => .error e
      | .ok n => select better (better best n) vs

def selectFrom (better : Int64 → Int64 → Int64) : List Value → Except Error Value
  | [] => .error (.arity 1 0)
  | first :: rest =>
      match first.toNumber with
      | .error e => .error e
      | .ok n => (select better n rest).map .number

def maximum (args : List Value) : Except Error Value :=
  selectFrom (fun a b => if a ≤ b then b else a) args

def minimum (args : List Value) : Except Error Value :=
  selectFrom (fun a b => if a ≤ b then a else b) args

def toNumbers : List Value → Except Error (List Int64)
  | [] => .ok []
  | v :: vs =>
      match v.toNumber with
      | .error e => .error e
      | .ok n => (toNumbers vs).map (n :: ·)

def chained (rel : Int64 → Int64 → Bool) : List Int64 → Bool
  | a :: b :: rest => rel a b && chained rel (b :: rest)
  | _ => true

def compare (rel : Int64 → Int64 → Bool) (args : List Value) : Except Error Value :=
  (toNumbers args).map fun ns => .bool (chained rel ns)

end PassingLisp.Arithmetic
