import PassingLisp.Text.Escaped
import PassingLisp.Value

namespace PassingLisp

def Text.decimal (n : Int) : List Char :=
  if n < 0 then '-' :: Nat.toDigits 10 n.natAbs else Nat.toDigits 10 n.natAbs

def Text.inLiteral : Char → List Char
  | '"' => ['\\', '"']
  | '\\' => ['\\', '\\']
  | '\n' => ['\\', 'n']
  | '\t' => ['\\', 't']
  | '\r' => ['\\', 'r']
  | c => [c]

def Text.literal (text : List Char) : List Char :=
  '"' :: (text.flatMap Text.inLiteral ++ ['"'])

def Param.spelling (p : Param) : List Char :=
  match p.mode.tag with
  | some tag => '(' :: (tag.toList ++ ' ' :: (p.name.toList ++ [')']))
  | none => p.name.toList

def Text.tagged (content : String) : List Char :=
  "#<".toList ++ content.toList ++ ['>']

namespace Value

mutual

def spelling : Value → List Char
  | number n => Text.decimal n.toInt
  | symbol name => name.toList
  | string text => Text.literal text.toList
  | bool true => ['#', 't']
  | bool false => ['#', 'f']
  | list elements => '(' :: (spellings elements ++ [')'])
  | builtin name _ => Text.tagged ("builtin-function:" ++ name)
  | procedure params _ _ =>
      "#<procedure (".toList ++ [' '].intercalate (params.map Param.spelling) ++ ")>".toList
  | form name => Text.tagged ("special-form:" ++ name)
  | reference name _ => Text.tagged ("reference:" ++ name)
  | delayed .. => Text.tagged "delayed"
  | eof => Text.tagged "eof"
  | unspecified => Text.tagged "unspecified"

def spellings : List Value → List Char
  | [] => []
  | [v] => spelling v
  | v :: vs => spelling v ++ ' ' :: spellings vs

end

def text (v : Value) : String :=
  String.ofList v.spelling

def plainText : Value → String
  | string text => text
  | v => v.text

end Value

def Mode.name : Mode → String
  | .value => "Value"
  | .delayed => "Delayed"
  | .dynamic => "Dynamic"
  | .reference => "Reference"

def Param.inspect (p : Param) : String :=
  "Param \x7b name: " ++ Text.quoted p.name ++ ", mode: " ++ p.mode.name ++ " \x7d"

namespace Value

mutual

def inspect : Value → String
  | number n => "Number(" ++ String.ofList (Text.decimal n.toInt) ++ ")"
  | symbol name => "Symbol(" ++ name ++ ")"
  | string text => "String(\"" ++ text ++ "\")"
  | bool b => "Bool(" ++ (if b then "true" else "false") ++ ")"
  | list elements => "List(" ++ ", ".intercalate (inspectAll elements) ++ ")"
  | builtin name _ => "BuiltinFunction(" ++ name ++ ")"
  | procedure params body _ =>
      "Function(params=[" ++ ", ".intercalate (params.map Param.inspect) ++ "], body=["
        ++ ", ".intercalate (inspectAll body) ++ "])"
  | form name => "SpecialForm(" ++ name ++ ")"
  | reference name _ => "Reference(" ++ name ++ ")"
  | delayed _ expr _ => "Delayed(" ++ inspect expr ++ ")"
  | eof => "Eof"
  | unspecified => "Unspecified"

def inspectAll : List Value → List String
  | [] => []
  | v :: vs => inspect v :: inspectAll vs

end

end Value

end PassingLisp
