import PassingLisp.Builtin.Arithmetic
import PassingLisp.Builtin.Lists

namespace PassingLisp.Builtin

def unary (f : Value → Except Error Value) : List Value → Reply
  | v :: _ => .ofExcept (f v)
  | [] => .error (.arity 1 0)

def binary (f : Value → Value → Except Error Value) : List Value → Reply
  | a :: b :: _ => .ofExcept (f a b)
  | args => .error (.arity 2 args.length)

def comparison (rel : Int64 → Int64 → Bool) : Builtin :=
  ⟨.atLeast 2, fun args => .ofExcept (Arithmetic.compare rel args)⟩

def core : List (String × Builtin) := [
  ("+", ⟨.any, fun args => .ofExcept (Arithmetic.add args)⟩),
  ("-", ⟨.atLeast 1, fun args => .ofExcept (Arithmetic.subtract args)⟩),
  ("*", ⟨.any, fun args => .ofExcept (Arithmetic.multiply args)⟩),
  ("=", comparison fun a b => a = b),
  ("<", comparison fun a b => a < b),
  (">", comparison fun a b => b < a),
  ("<=", comparison fun a b => a ≤ b),
  (">=", comparison fun a b => b ≤ a),
  ("max", ⟨.atLeast 1, fun args => .ofExcept (Arithmetic.maximum args)⟩),
  ("min", ⟨.atLeast 1, fun args => .ofExcept (Arithmetic.minimum args)⟩),
  ("equal?", ⟨.exactly 2, binary fun a b => .ok (.bool (a.equal b))⟩),
  ("not", ⟨.exactly 1, unary fun v => .ok (.bool !v.isTrue)⟩),
  ("car", ⟨.exactly 1, unary Lists.car⟩),
  ("cdr", ⟨.exactly 1, unary Lists.cdr⟩),
  ("cons", ⟨.exactly 2, binary Lists.cons⟩),
  ("list", ⟨.any, fun args => .value (.list args)⟩),
  ("null?", ⟨.exactly 1, unary fun v => .ok (.bool (Lists.isNull v))⟩),
  ("pair?", ⟨.exactly 1, unary fun v => .ok (.bool (Lists.isPair v))⟩),
  ("string-append", ⟨.any, fun args => .ofExcept ((Lists.appendStrings args).map .string)⟩),
  ("display", ⟨.exactly 1, fun args => .print (String.join (args.map Value.plainText))⟩),
  ("newline", ⟨.exactly 0, fun _ => .print "\n"⟩),
  ("error", ⟨.any, fun args => .error (.evaluation (Lists.raisedText args))⟩),
  ("exit", ⟨.any, fun _ => .error .exit⟩),
  ("stream-car", ⟨.exactly 1, unary Lists.car⟩),
  ("stream-cdr", ⟨.exactly 1, unary Lists.streamTail⟩),
  ("stream-null?", ⟨.exactly 1, unary fun v => .ok (.bool (Lists.isNull v))⟩)]

end PassingLisp.Builtin
