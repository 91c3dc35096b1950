namespace PassingLisp.Reader.Comment

inductive Place where
  | code
  | string
  | escape
  | comment
  deriving DecidableEq

def next : Place → Char → Place
  | .code, ';' => .comment
  | .code, '"' => .string
  | .code, _ => .code
  | .string, '\\' => .escape
  | .string, '"' => .code
  | .string, _ => .string
  | .escape, _ => .string
  | .comment, '\n' => .code
  | .comment, _ => .comment

def stripFrom : Place → List Char → List Char
  | _, [] => []
  | place, c :: rest =>
      let place := next place c
      if place = .comment then stripFrom place rest else c :: stripFrom place rest

def strip (input : List Char) : List Char :=
  stripFrom .code input

end PassingLisp.Reader.Comment
