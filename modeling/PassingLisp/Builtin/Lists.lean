import PassingLisp.Builtin

namespace PassingLisp.Lists

def car (v : Value) : Except Error Value :=
  match v.toList with
  | .error e => .error e
  | .ok [] => .error (.evaluation "car of empty list")
  | .ok (first :: _) => .ok first

def cdr (v : Value) : Except Error Value :=
  match v.toList with
  | .error e => .error e
  | .ok [] => .error (.evaluation "cdr of empty list")
  | .ok (_ :: rest) => .ok (.list rest)

def cons (first : Value) (rest : Value) : Except Error Value :=
  match rest with
  | .list vs => .ok (.list (first :: vs))
  | _ => .error (.type "cons requires a list as second argument")

def isNull (v : Value) : Bool :=
  match v with
  | .list [] => true
  | _ => false

def isPair (v : Value) : Bool :=
  match v with
  | .list (_ :: _) => true
  | _ => false

def streamTail (v : Value) : Except Error Value :=
  match v.toList with
  | .error e => .error e
  | .ok [_, tail] => .ok tail
  | .ok _ => .error (.type ("stream-cdr expects a stream pair, got " ++ v.text))

def appendStrings : List Value → Except Error String
  | [] => .ok ""
  | .string s :: vs => (appendStrings vs).map (s ++ ·)
  | v :: _ => .error (.type ("string-append expects strings, got " ++ v.text))

def raisedText (args : List Value) : String :=
  if args.isEmpty then "Error" else " ".intercalate (args.map Value.plainText)

end PassingLisp.Lists
