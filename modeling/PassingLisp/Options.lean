import PassingLisp.Session

namespace PassingLisp

structure Options where
  maxDepth : Nat := usualDepth
  comments : Bool := true
  script : Option String := none

namespace Options

inductive NumberFault where
  | noDigits
  | invalidDigit
  | tooLarge

def NumberFault.message : NumberFault → String
  | noDigits => "cannot parse integer from empty string"
  | invalidDigit => "invalid digit found in string"
  | tooLarge => "number too large to fit in target type"

inductive Fault where
  | noValue (option : String)
  | notANumber (text : String) (fault : NumberFault)

def Fault.message : Fault → String
  | noValue option => "the '" ++ option ++ "' option doesn't have an associated value"
  | notANumber text fault => "failed to parse '" ++ text ++ "': " ++ fault.message

def digitsAfter : Nat → List Char → Except NumberFault Nat
  | n, [] => .ok n
  | n, c :: cs =>
      if c.isDigit then
        let n := n * 10 + Number.digit c
        if n < 2 ^ 64 then digitsAfter n cs else .error .tooLarge
      else .error .invalidDigit

def number : List Char → Except NumberFault Nat
  | [] => .error .noDigits
  | ['+'] => .error .invalidDigit
  | '+' :: digits => digitsAfter 0 digits
  | digits => digitsAfter 0 digits

inductive Request where
  | usage
  | serve (options : Options)

def takeDepth : List String → Except Fault (Option Nat × List String)
  | [] => .ok (none, [])
  | word :: rest =>
      if word = "--max-depth" then
        match rest with
        | [] => .error (.noValue word)
        | text :: rest =>
            match number text.toList with
            | .ok n => .ok (some n, rest)
            | .error fault => .error (.notANumber text fault)
      else
        match takeDepth rest with
        | .ok (depth, rest) => .ok (depth, word :: rest)
        | .error fault => .error fault

def parse (words : List String) : Except Fault Request :=
  if words.contains "-h" || words.contains "--help" then .ok .usage
  else
    match takeDepth words with
    | .error fault => .error fault
    | .ok (depth, words) =>
        .ok <| .serve
          { maxDepth := depth.getD usualDepth
            comments := !words.contains "--no-comments"
            script := (words.erase "--no-comments").head? }

end Options

end PassingLisp
