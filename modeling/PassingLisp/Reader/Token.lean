import PassingLisp.Number
import PassingLisp.Reader.Fault
import PassingLisp.Text.Alphanumeric
import PassingLisp.Value

namespace PassingLisp.Reader

def symbolSigns : List Char := "+-*/<>=!?_$.%&:^~".toList

def isSymbolChar (c : Char) : Bool :=
  Text.isAlphanumeric c || symbolSigns.contains c

def startsNumber : List Char → Bool
  | '-' :: c :: _ => c.isDigit
  | c :: _ => c.isDigit
  | [] => false

def isSymbol (name : List Char) : Bool :=
  !name.isEmpty && !startsNumber name && name.all isSymbolChar

def decimal? (input : List Char) : Option (Value × List Char) :=
  let body := match input with
    | '-' :: rest => rest
    | _ => input
  let digits := body.takeWhile Char.isDigit
  let size : Int := Number.ofDigits 10 digits
  if digits.isEmpty then none
  else
    (Number.ofInt? (if input.head? = some '-' then -size else size)).map fun n =>
      (.number n, body.dropWhile Char.isDigit)

def hexadecimal? : List Char → Option (Value × List Char)
  | '#' :: x :: body =>
      let digits := body.takeWhile Number.isHexDigit
      if (x = 'x' ∨ x = 'X') ∧ ¬ digits.isEmpty then
        (Number.ofInt? (Number.ofDigits 16 digits)).map fun n =>
          (.number n, body.dropWhile Number.isHexDigit)
      else none
  | _ => none

def bool? : List Char → Option (Value × List Char)
  | '#' :: 't' :: rest => some (.bool true, rest)
  | '#' :: 'f' :: rest => some (.bool false, rest)
  | _ => none

def symbol? (input : List Char) : Option (Value × List Char) :=
  let name := input.takeWhile isSymbolChar
  if isSymbol name then some (.symbol (String.ofList name), input.dropWhile isSymbolChar) else none

def unescape : Char → Option Char
  | 'n' => some '\n'
  | 't' => some '\t'
  | 'r' => some '\r'
  | '\\' => some '\\'
  | '"' => some '"'
  | _ => none

def stringBody : Reader (List Char)
  | [] => .error (.unclosed [])
  | '"' :: rest => .ok ([], rest)
  | ['\\'] => .error (.badEscape ['\\'])
  | '\\' :: c :: rest =>
      match unescape c with
      | none => .error (.badEscape ('\\' :: c :: rest))
      | some d =>
          match stringBody rest with
          | .ok (text, rest) => .ok (d :: text, rest)
          | .error f => .error f
  | c :: rest =>
      match stringBody rest with
      | .ok (text, rest) => .ok (c :: text, rest)
      | .error f => .error f

def atom? (input : List Char) : Option (Value × List Char) :=
  hexadecimal? input <|> decimal? input <|> bool? input <|> symbol? input

end PassingLisp.Reader
