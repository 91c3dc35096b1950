import PassingLisp.Reader.Comment
import PassingLisp.Reader.Datum

namespace PassingLisp.Reader

def one (input : List Char) : Except ParseError Value :=
  match datum maxNesting input with
  | .error f => .error (f.toParseError input)
  | .ok (v, rest) =>
      match Text.skipBlank rest with
      | [] => .ok v
      | rest =>
          .error <| .withContext .trailingContent
            ("Unexpected remaining input: '" ++ String.ofList rest ++ "'") input
            (Text.byteLength input - Text.byteLength rest)

def leftover (source rest : List Char) : ParseError :=
  let offset := Text.byteLength source - Text.byteLength rest
  match datum maxNesting rest with
  | .error f =>
      let e := f.toParseError rest
      if e.kind = .incomplete then e else .withContext e.kind e.message source offset
  | .ok _ =>
      .withContext .invalidSyntax
        ("Unexpected input: '" ++ String.ofList (Text.trim rest) ++ "'") source offset

def sequence (source : List Char) : Except ParseError (List Value) :=
  match many (datum maxNesting) (source.length + 1) source with
  | .error f => .error (f.toParseError source)
  | .ok (items, rest) =>
      match Text.skipBlank rest with
      | [] => .ok items
      | rest => .error (leftover source rest)

def program (comments : Bool) (input : List Char) : Except ParseError (List Value) :=
  sequence (if comments then Comment.strip input else input)

end PassingLisp.Reader
