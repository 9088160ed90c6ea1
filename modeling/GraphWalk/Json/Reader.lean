import GraphWalk.Json.Document
import GraphWalk.Json.Literal

/-!
Reading JSON text. Every reader takes the characters that are left and gives what it read together
with the characters after it.
-/

namespace GraphWalk.Json

/-- A character of a string literal, or a code unit given by `\u`. -/
inductive Piece where
  | char (c : Char)
  | unit (n : Nat)

namespace Piece

def isHighSurrogate (n : Nat) : Bool := 0xD800 ≤ n && n < 0xDC00

def isLowSurrogate (n : Nat) : Bool := 0xDC00 ≤ n && n < 0xE000

/-- The characters of a string literal, unless half of a surrogate pair stands alone. -/
def decode? : List Piece → Option (List Char)
  | [] => some []
  | .char c :: rest => (decode? rest).map (c :: ·)
  | .unit n :: .unit m :: rest =>
    if isHighSurrogate n && isLowSurrogate m then
      (decode? rest).map (Char.ofNat (0x10000 + (n - 0xD800) * 0x400 + (m - 0xDC00)) :: ·)
    else if isHighSurrogate n || isLowSurrogate n then none
    else (decode? (.unit m :: rest)).map (Char.ofNat n :: ·)
  | .unit n :: rest =>
    if isHighSurrogate n || isLowSurrogate n then none
    else (decode? rest).map (Char.ofNat n :: ·)

end Piece

namespace Reader

def isSpace (c : Char) : Bool := c == ' ' || c == '\t' || c == '\n' || c == '\r'

def skipSpace (cs : List Char) : List Char := cs.dropWhile isSpace

def hexDigit? (c : Char) : Option Nat :=
  if '0' ≤ c ∧ c ≤ '9' then some (c.toNat - '0'.toNat)
  else if 'a' ≤ c ∧ c ≤ 'f' then some (c.toNat - 'a'.toNat + 10)
  else if 'A' ≤ c ∧ c ≤ 'F' then some (c.toNat - 'A'.toNat + 10)
  else none

/-- The character that a two-character escape stands for. -/
def escaped? : Char → Option Char
  | '"' => some '"'
  | '\\' => some '\\'
  | '/' => some '/'
  | 'b' => some '\x08'
  | 'f' => some '\x0c'
  | 'n' => some '\n'
  | 'r' => some '\r'
  | 't' => some '\t'
  | _ => none

/-- A string literal behind its opening quote. -/
def pieces? : List Char → Option (List Piece × List Char)
  | [] => none
  | '"' :: rest => some ([], rest)
  | '\\' :: 'u' :: a :: b :: c :: d :: rest => do
    let unit := (((← hexDigit? a) * 16 + (← hexDigit? b)) * 16 + (← hexDigit? c)) * 16
      + (← hexDigit? d)
    let (pieces, rest) ← pieces? rest
    return (.unit unit :: pieces, rest)
  | '\\' :: c :: rest => do
    let c ← escaped? c
    let (pieces, rest) ← pieces? rest
    return (.char c :: pieces, rest)
  | c :: rest => do
    if c.toNat < 0x20 then none
    let (pieces, rest) ← pieces? rest
    return (.char c :: pieces, rest)

/-- The text of a string literal behind its opening quote; no text for a lone surrogate. -/
def string? (cs : List Char) : Option (Option String × List Char) := do
  let (pieces, rest) ← pieces? cs
  return ((Piece.decode? pieces).map String.ofList, rest)

def digits (cs : List Char) : List Nat × List Char :=
  ((cs.takeWhile Char.isDigit).map (·.toNat - '0'.toNat), cs.dropWhile Char.isDigit)

def someDigits? (cs : List Char) : Option (List Nat × List Char) :=
  match digits cs with
  | ([], _) => none
  | read => some read

/-- The whole part of a number: no zero stands before another digit. -/
def whole? (cs : List Char) : Option (List Nat × List Char) :=
  match someDigits? cs with
  | some (0 :: _ :: _, _) => none
  | read => read

def fraction? : List Char → Option (List Nat × List Char)
  | '.' :: rest => someDigits? rest
  | rest => some ([], rest)

def exponentDigits? (sign : Int) (cs : List Char) : Option (Option Int × List Char) := do
  let (ds, rest) ← someDigits? cs
  return (some (sign * (ds.foldl (· * 10 + ·) 0 : Nat)), rest)

def exponent? : List Char → Option (Option Int × List Char)
  | c :: rest =>
    if c = 'e' ∨ c = 'E' then
      match rest with
      | '+' :: rest => exponentDigits? 1 rest
      | '-' :: rest => exponentDigits? (-1) rest
      | rest => exponentDigits? 1 rest
    else some (none, c :: rest)
  | [] => some (none, [])

def unsignedNumber? (negative : Bool) (cs : List Char) : Option (Literal × List Char) := do
  let (whole, cs) ← whole? cs
  let (fraction, cs) ← fraction? cs
  let (exponent, cs) ← exponent? cs
  return (⟨negative, whole, fraction, exponent⟩, cs)

def number? : List Char → Option (Literal × List Char)
  | '-' :: rest => unsignedNumber? true rest
  | rest => unsignedNumber? false rest

mutual

def value? : Nat → List Char → Option (Document × List Char)
  | 0, _ => none
  | fuel + 1, cs =>
    match skipSpace cs with
    | 'n' :: 'u' :: 'l' :: 'l' :: rest => some (.null, rest)
    | 't' :: 'r' :: 'u' :: 'e' :: rest => some (.bool true, rest)
    | 'f' :: 'a' :: 'l' :: 's' :: 'e' :: rest => some (.bool false, rest)
    | '"' :: rest => (string? rest).map fun (text, rest) => (.str text, rest)
    | '[' :: rest =>
      match skipSpace rest with
      | ']' :: rest => some (.arr [], rest)
      | rest => (items? fuel rest).map fun (items, rest) => (.arr items, rest)
    | '\x7b' :: rest =>
      match skipSpace rest with
      | '\x7d' :: rest => some (.obj [], rest)
      | rest => (members? fuel rest).map fun (members, rest) => (.obj members, rest)
    | rest => (number? rest).map fun (literal, rest) => (.num literal.value?, rest)

/-- The items of a list that has at least one more, and its closing bracket. -/
def items? : Nat → List Char → Option (List Document × List Char)
  | 0, _ => none
  | fuel + 1, cs => do
    let (item, rest) ← value? fuel cs
    match skipSpace rest with
    | ']' :: rest => some ([item], rest)
    | ',' :: rest => (items? fuel rest).map fun (items, rest) => (item :: items, rest)
    | _ => none

/-- The members of an object that has at least one more, and its closing brace. -/
def members? : Nat → List Char → Option (List (Option String × Document) × List Char)
  | 0, _ => none
  | fuel + 1, cs =>
    match skipSpace cs with
    | '"' :: rest => do
      let (key, rest) ← string? rest
      match skipSpace rest with
      | ':' :: rest =>
        let (item, rest) ← value? fuel rest
        match skipSpace rest with
        | '\x7d' :: rest => some ([(key, item)], rest)
        | ',' :: rest =>
          (members? fuel rest).map fun (members, rest) => ((key, item) :: members, rest)
        | _ => none
      | _ => none
    | _ => none

end

end Reader

/-- Reads a whole text. Each call of a reader takes a character or is followed by one that does, so
twice the length bounds the depth of calls. -/
def Document.parse? (text : String) : Option Document := do
  let cs := text.toList
  let (document, rest) ← Reader.value? (2 * (cs.length + 1)) cs
  if (Reader.skipSpace rest).isEmpty then some document else none

def parse? (text : String) : Option Json := do (← Document.parse? text).value?

example : parse? "[1, -2.50e1,\"\\u00e9\", \x7b\"b\": null, \"a\": true, \"b\": 0\x7d]" =
    some (.arr [.num (.int 1), .num (.decimal ⟨true, 25, 0⟩), .str "é",
      .obj [("a", .bool true), ("b", .num (.int 0))]]) := by
  decide +kernel

example : parse? "01" = none := by decide +kernel

example : parse? "\"\\ud800\"" = none := by decide +kernel

end GraphWalk.Json
