import PassingLisp.Text.Blank

namespace PassingLisp

inductive ParseError.Kind where
  | invalidSyntax
  | incomplete
  | tooDeeplyNested
  | trailingContent
  deriving DecidableEq

structure ParseError where
  kind : ParseError.Kind
  message : String
  context : Option String := none
  deriving DecidableEq

namespace ParseError

def windowSize : Nat := 100

def windowLead : Nat := 20

def cutMark : List Char := "[...]".toList

def flatten (text : List Char) : List Char :=
  (text.flatMap fun c => if c = '\n' then ['\\', 'n'] else [c]).filter (· ≠ '\r')

/-- The window on a text around an offset, with a mark on each side where text was cut off. The
offset counts bytes; the window opens that many characters into the text. -/
def excerpt (input : List Char) (offset : Nat) : List Char :=
  let start := offset - windowLead
  let window := (input.drop start).take windowSize
  flatten <|
    (if 0 < start then cutMark else []) ++ window
      ++ (if start + Text.byteLength window < Text.byteLength input then cutMark else [])

def withContext (kind : Kind) (message : String) (input : List Char) (offset : Nat) : ParseError :=
  ⟨kind, message, some (String.ofList (excerpt input offset))⟩

def needsMore (e : ParseError) : Bool :=
  e.kind = .incomplete

@[simp] theorem kind_withContext (kind : Kind) (message : String) (input : List Char)
    (offset : Nat) : (withContext kind message input offset).kind = kind := rfl

@[simp] theorem message_withContext (kind : Kind) (message : String) (input : List Char)
    (offset : Nat) : (withContext kind message input offset).message = message := rfl

end ParseError

end PassingLisp
