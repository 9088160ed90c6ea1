import GraphWalk.Text.Unprinted

/-!
A text in double quotes, as shown inside a message: quotes, backslashes and the common controls
have a two-character escape, every other character that has no visible form is given by its code.
-/

namespace GraphWalk.Text

/-- The digits of a code point in lower-case hexadecimal. -/
def hexDigits (n : Nat) : List Char := Nat.toDigits 16 n

def quoteChar (c : Char) : List Char :=
  match c with
  | '"' => ['\\', '"']
  | '\\' => ['\\', '\\']
  | '\n' => ['\\', 'n']
  | '\r' => ['\\', 'r']
  | '\t' => ['\\', 't']
  | '\x00' => ['\\', '0']
  | c =>
    if isUnprinted c then ['\\', 'u', '\x7b'] ++ hexDigits c.toNat ++ ['\x7d'] else [c]

def quote (s : String) : String :=
  String.ofList ('"' :: s.toList.flatMap quoteChar ++ ['"'])

example : quote "a\tb\u200bc d" = "\"a\\tb\\u\x7b200b\x7dc d\"" := by decide +kernel

/-- A filler has no visible form, a halfwidth sound mark has one. -/
example : quote "\u3164\uff9e" = "\"\\u\x7b3164\x7d\uff9e\"" := by decide +kernel

end GraphWalk.Text
