import PassingLisp.Reader.Token

namespace PassingLisp.Reader

def separated (item : Reader Value) : Nat → Reader (List Value)
  | 0, input => .ok ([], input)
  | fuel + 1, input =>
      if input.head?.any Text.isBlank then
        match item (Text.skipBlank input) with
        | .ok (v, rest) =>
            match separated item fuel rest with
            | .ok (vs, rest) => .ok (v :: vs, rest)
            | .error f => .error f
        | .error f => if f.isFinal then .error f else .ok ([], input)
      else .ok ([], input)

def elements (item : Reader Value) : Reader (List Value) := fun input =>
  match item input with
  | .ok (v, rest) =>
      match separated item rest.length rest with
      | .ok (vs, rest) => .ok (v :: vs, rest)
      | .error f => .error f
  | .error f => if f.isFinal then .error f else .ok ([], input)

def listBody (item : Reader Value) : Reader Value := fun input =>
  match elements item (Text.skipBlank input) with
  | .ok (vs, rest) =>
      match Text.skipBlank rest with
      | ')' :: rest => .ok (.list vs, rest)
      | rest => .error (.unclosed rest)
  | .error f => .error f

def datumWith (item : Reader Value) : Reader Value
  | '\'' :: rest =>
      match item rest with
      | .ok (v, rest) => .ok (.list [.symbol "quote", v], rest)
      | .error f => if f.isFinal then .error f else .error (.malformed ('\'' :: rest))
  | '(' :: rest => listBody item rest
  | '"' :: rest =>
      match stringBody rest with
      | .ok (text, rest) => .ok (.string (String.ofList text), rest)
      | .error f => .error f
  | input =>
      match atom? input with
      | some found => .ok found
      | none => .error (.malformed input)

def datum : Nat → Reader Value
  | 0, input => .error (.tooDeep input)
  | level + 1, input => datumWith (datum level) (Text.skipBlank input)

def many (item : Reader Value) : Nat → Reader (List Value)
  | 0, input => .ok ([], input)
  | fuel + 1, input =>
      match item input with
      | .ok (v, rest) =>
          match many item fuel rest with
          | .ok (vs, rest) => .ok (v :: vs, rest)
          | .error f => .error f
      | .error f => if f.isFinal then .error f else .ok ([], input)

end PassingLisp.Reader
