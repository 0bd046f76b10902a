import BusScope.Json
import BusScope.Text.Utf8
import BusScope.Yaml.Style

/-!
Documents in YAML block style. Members of a mapping and items of a sequence each start a line;
a sequence under a key stands in the column of the key, everything else two columns further in.
-/

namespace BusScope.Yaml

open Number Text

/-- Positional from `0.00001` up to below `10 ^ 16`, and no sign on a positive exponent. -/
def numbers : Layout := ⟨fun e => -5 ≤ e && e < 16, true, false, .even, ".nan", ".inf"⟩

def closeLine (s : List Char) : List Char :=
  if s.getLast?.any isBreak then s else s ++ ['\n']

def isSimpleKey (s : List Char) : Bool := !s.any isBreak && Utf8.byteLength s ≤ 128

/-- What stands before the value of a member whose key starts in the given column, and the column
of the value. A key that is not simple gets lines of its own. -/
def introduction (column : Nat) (name : String) (value : Json) : List Char × Nat :=
  let key := name.toList
  if isSimpleKey key then
    match value with
    | .list (_ :: _) => (scalar column key ++ ':' :: '\n' :: spaces column, column)
    | .object (_ :: _) => (scalar column key ++ ':' :: '\n' :: spaces (column + 2), column + 2)
    | _ => (scalar column key ++ [':', ' '], column + 2)
  else
    ('?' :: ' ' :: closeLine (scalar (column + 2) key) ++ spaces column ++ [':', ' '], column + 2)

mutual

def lines (column : Nat) : Json → List Char
  | .null => "null\n".toList
  | .bool b => (if b then "true\n" else "false\n").toList
  | .int n => (toString n ++ "\n").toList
  | .float x => (numbers.write x.unpack ++ "\n").toList
  | .text s => closeLine (scalar column s.toList)
  | .list [] => "[]\n".toList
  | .object [] => "\x7b\x7d\n".toList
  | .list (item :: rest) => '-' :: ' ' :: lines (column + 2) item ++ itemLines column rest
  | .object ((name, value) :: rest) =>
    let p := introduction column name value
    p.1 ++ lines p.2 value ++ memberLines column rest
termination_by structural j => j

def itemLines (column : Nat) : List Json → List Char
  | [] => []
  | item :: rest =>
    spaces column ++ '-' :: ' ' :: lines (column + 2) item ++ itemLines column rest
termination_by structural js => js

def memberLines (column : Nat) : List (String × Json) → List Char
  | [] => []
  | (name, value) :: rest =>
    let p := introduction column name value
    spaces column ++ p.1 ++ lines p.2 value ++ memberLines column rest
termination_by structural ms => ms

end

def print (j : Json) : String :=
  String.ofList (match j with
    | .text s => closeLine (scalar 2 s.toList)
    | j => lines 0 j)

end BusScope.Yaml
