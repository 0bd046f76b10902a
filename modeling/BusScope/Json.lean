import BusScope.Number.Layout
import BusScope.Text.Hex

/-!
JSON documents whose objects keep their members in order, and their compact text. An object never
lists a name twice when it is built with `setMember`: a later value takes the place of the earlier
one.
-/

namespace BusScope

open Number Text

inductive Json where
  | null
  | bool (b : Bool)
  | int (n : Int)
  | float (x : Binary64)
  | text (s : String)
  | list (items : List Json)
  | object (members : List (String × Json))

instance : Inhabited Json := ⟨.null⟩

namespace Json

def setMember (name : String) (value : Json) : List (String × Json) → List (String × Json)
  | [] => [(name, value)]
  | (n, v) :: rest => if n = name then (n, value) :: rest else (n, v) :: setMember name value rest

/-- The object with these members; a repeated name keeps its first place and its last value. -/
def ofMembers (members : List (String × Json)) : Json :=
  .object (members.foldl (fun ms m => setMember m.1 m.2 ms) [])

def nat (n : Nat) : Json := .int n

def texts (items : List String) : Json := .list (items.map .text)

def escaped (c : Char) : List Char :=
  let n := c.toNat
  if c = '"' ∨ c = '\\' then ['\\', c]
  else if c = '\n' then ['\\', 'n']
  else if c = '\r' then ['\\', 'r']
  else if c = '\t' then ['\\', 't']
  else if n = 0x08 then ['\\', 'b']
  else if n = 0x0C then ['\\', 'f']
  else if n < 0x20 then ['\\', 'u'] ++ Hex.fixed Hex.digit 4 n
  else [c]

def quoted (s : String) : String :=
  String.ofList ('"' :: s.toList.flatMap escaped ++ ['"'])

/-- Positional from `0.00001` up to below `10 ^ 16`, and a positive exponent shows its sign. -/
def numbers : Layout := ⟨fun e => -5 ≤ e && e < 16, true, true, .even, "null", "null"⟩

mutual

def compact : Json → String
  | .null => "null"
  | .bool b => if b then "true" else "false"
  | .int n => toString n
  | .float x => numbers.write x.unpack
  | .text s => quoted s
  | .list items => "[" ++ compactItems items ++ "]"
  | .object members => "\x7b" ++ compactMembers members ++ "\x7d"
termination_by structural j => j

def compactItems : List Json → String
  | [] => ""
  | [j] => compact j
  | j :: rest => compact j ++ "," ++ compactItems rest
termination_by structural js => js

def compactMembers : List (String × Json) → String
  | [] => ""
  | [(name, j)] => quoted name ++ ":" ++ compact j
  | (name, j) :: rest => quoted name ++ ":" ++ compact j ++ "," ++ compactMembers rest
termination_by structural ms => ms

end

end Json

end BusScope
