import GraphWalk.Json.Basic

/-!
The compact text of a JSON value: no blanks, members in their order, control characters of a string
by their code.
-/

namespace GraphWalk.Json

def Number.render : Number → String
  | .int n => toString n
  | .decimal d => d.render

/-- Four hexadecimal digits. -/
def hexQuad (n : Nat) : List Char :=
  [n / 4096 % 16, n / 256 % 16, n / 16 % 16, n % 16].map Nat.digitChar

def escape (c : Char) : List Char :=
  match c with
  | '"' => ['\\', '"']
  | '\\' => ['\\', '\\']
  | '\n' => ['\\', 'n']
  | '\r' => ['\\', 'r']
  | '\t' => ['\\', 't']
  | '\x08' => ['\\', 'b']
  | '\x0c' => ['\\', 'f']
  | c => if c.toNat < 0x20 then '\\' :: 'u' :: hexQuad c.toNat else [c]

def renderString (s : String) : String :=
  String.ofList ('"' :: s.toList.flatMap escape ++ ['"'])

mutual

def render : Json → String
  | .null => "null"
  | .bool b => if b then "true" else "false"
  | .num n => n.render
  | .str s => renderString s
  | .arr items => "[" ++ String.intercalate "," (renderItems items) ++ "]"
  | .obj fields => "\x7b" ++ String.intercalate "," (renderFields fields) ++ "\x7d"

def renderItems : List Json → List String
  | [] => []
  | item :: rest => item.render :: renderItems rest

def renderFields : Fields → List String
  | [] => []
  | (key, value) :: rest => (renderString key ++ ":" ++ value.render) :: renderFields rest

end

end GraphWalk.Json
