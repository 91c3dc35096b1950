import PassingLisp.Interpreter

namespace PassingLisp.Prompt

def padded (width : Nat) (text : String) : String :=
  text ++ String.ofList (List.replicate (width - text.length) ' ')

def cell (name : String) : String :=
  "  " ++ padded 22 name

def rows : List String → List (List String)
  | a :: b :: c :: d :: rest => [a, b, c, d] :: rows rest
  | [] => []
  | short => [short]

def columns (names : List String) : String :=
  String.join ((rows names).map fun row => String.join (row.map cell) ++ "\n") ++ "\n"

def isBuiltin : Value → Bool
  | .builtin .. => true
  | _ => false

def entry (b : String × Value) : String :=
  "  " ++ b.1 ++ " = " ++ b.2.text ++ "\n"

def environment (bindings : List (String × Value)) : String :=
  let builtins := bindings.filter fun b => isBuiltin b.2
  let others := bindings.filter fun b => !isBuiltin b.2
  if bindings.isEmpty then "Environment is empty.\n"
  else
    "Environment bindings (" ++ toString bindings.length ++ " total):\n\n"
      ++ (if builtins.isEmpty then ""
        else "Built-in functions (" ++ toString builtins.length ++ "):\n"
          ++ columns (builtins.map (·.1)))
      ++ (if others.isEmpty then ""
        else "User-defined values (" ++ toString others.length ++ "):\n"
          ++ String.join (others.map entry))

def forms (names : List String) : String :=
  "Special forms (" ++ toString names.length ++ "):\n" ++ columns names

end PassingLisp.Prompt
