import GraphWalk.Json.Basic

/-!
A JSON text as written, and the value it denotes.

A document keeps the order of members and their repetitions. A number whose magnitude is too large
and a string with half of a surrogate pair are well formed but denote nothing. In the value of a
document the members of an object are sorted by key, a later member replaces an earlier one of the
same key, and nesting is bounded.
-/

namespace GraphWalk

/-- `none` stands for a leaf that is well formed but denotes nothing. -/
inductive Json.Document where
  | null
  | bool (b : Bool)
  | num (n : Option Json.Number)
  | str (s : Option String)
  | arr (items : List Json.Document)
  | obj (members : List (Option String × Json.Document))
deriving Inhabited

namespace Json

/-- Sets a member in a list sorted by key. -/
def Fields.insert (key : String) (value : Json) : Fields → Fields
  | [] => [(key, value)]
  | (k, v) :: rest =>
    match compare key k with
    | .lt => (key, value) :: (k, v) :: rest
    | .eq => (key, value) :: rest
    | .gt => (k, v) :: Fields.insert key value rest

namespace Document

/-- How many levels of lists and objects a value may have. -/
def maxDepth : Nat := 127

mutual

/-- The value denoted, with `room` levels of nesting left. -/
def denote? (room : Nat) : Document → Option Json
  | .null => some .null
  | .bool b => some (.bool b)
  | .num n => n.map .num
  | .str s => s.map .str
  | .arr items => do
    if room = 0 then none
    else some (.arr (← denoteItems? (room - 1) items))
  | .obj members => do
    if room = 0 then none
    else some (.obj (← denoteMembers? (room - 1) members []))

def denoteItems? (room : Nat) : List Document → Option (List Json)
  | [] => some []
  | item :: rest => do
    let value ← item.denote? room
    return value :: (← denoteItems? room rest)

/-- Adds the members to those read so far. -/
def denoteMembers? (room : Nat) : List (Option String × Document) → Fields → Option Fields
  | [], read => some read
  | (key, item) :: rest, read => do
    let value ← item.denote? room
    denoteMembers? room rest (read.insert (← key) value)

end

def value? (d : Document) : Option Json := d.denote? maxDepth

/-- Keeps the members with one of the given keys. Each of them may occur only once; what the others
hold is not looked at. -/
def selectMembers? (keys : List String) (members : List (Option String × Document)) :
    Option (List (String × Document)) := do
  let named ← members.mapM fun (key, value) => key.map (·, value)
  let selected := named.filter (keys.contains ·.1)
  if (selected.map (·.1)).Nodup then some selected else none

end Document

end Json

end GraphWalk
