import PassingLisp.ParseError

namespace PassingLisp.Reader

def maxNesting : Nat := 32

/-- What went wrong, with the text left at that place. Only `malformed` lets a reader try something
else; the others are final. -/
inductive Fault where
  | malformed (rest : List Char)
  | tooDeep (rest : List Char)
  | unclosed (rest : List Char)
  | badEscape (rest : List Char)
  deriving DecidableEq

namespace Fault

def rest : Fault → List Char
  | malformed rest | tooDeep rest | unclosed rest | badEscape rest => rest

def isFinal : Fault → Bool
  | malformed _ => false
  | _ => true

def position (input : List Char) (f : Fault) : Nat :=
  Text.byteLength input - Text.byteLength f.rest

def atEnd (input : List Char) (f : Fault) : Bool :=
  Text.byteLength input ≤ f.position input

def nearMessage (rest : List Char) : String :=
  "Invalid syntax near '" ++ String.ofList (rest.take 10) ++ "'"

def kind (input : List Char) : Fault → ParseError.Kind
  | tooDeep _ => .tooDeeplyNested
  | f => if f.atEnd input then .incomplete else .invalidSyntax

def message (input : List Char) (f : Fault) : String :=
  match f with
  | tooDeep _ =>
      "Expression too deeply nested (max depth: " ++ toString maxNesting ++ ")"
  | _ =>
      if f.atEnd input then "Unexpected end of input"
      else match f with
        | unclosed _ => "Expected character at position " ++ toString (f.position input)
        | _ => nearMessage f.rest

def toParseError (input : List Char) (f : Fault) : ParseError :=
  ParseError.withContext (f.kind input) (f.message input) input (f.position input)

end Fault

end PassingLisp.Reader

namespace PassingLisp

abbrev Reader (α : Type) := List Char → Except Reader.Fault (α × List Char)

end PassingLisp
