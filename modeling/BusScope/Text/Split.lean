/-!
Cutting character lists. Cutting at separators always yields at least one piece, and the pieces
joined with the separator give the text back. Blank is what has the Unicode property `White_Space`.
-/

namespace BusScope.Text

def consFirst (c : Char) : List (List Char) → List (List Char)
  | [] => [[c]]
  | piece :: pieces => (c :: piece) :: pieces

def splitWhere (p : Char → Bool) : List Char → List (List Char)
  | [] => [[]]
  | c :: rest => if p c then [] :: splitWhere p rest else consFirst c (splitWhere p rest)

def splitAt (sep : Char) : List Char → List (List Char) := splitWhere (· == sep)

/-- The lines of a text. What follows the last line end is a line unless it is empty. -/
def lines (s : List Char) : List (List Char) :=
  let pieces := splitAt '\n' s
  if pieces.getLast? = some [] then pieces.dropLast else pieces

def splitFirst? (sep : Char) : List Char → Option (List Char × List Char)
  | [] => none
  | c :: rest =>
    if c = sep then some ([], rest)
    else (splitFirst? sep rest).map fun p => (c :: p.1, p.2)

/-- The pieces between pairs of `sep`, pairs taken from the left without overlap. -/
def splitPairs (sep : Char) : List Char → List (List Char)
  | [] => [[]]
  | [c] => [[c]]
  | c :: d :: rest =>
    if c = sep ∧ d = sep then [] :: splitPairs sep rest
    else consFirst c (splitPairs sep (d :: rest))

def join (sep : List Char) : List (List Char) → List Char := List.intercalate sep

def stripStart? (start : List Char) (s : List Char) : Option (List Char) :=
  if start.isPrefixOf s then some (s.drop start.length) else none

def isBlank (c : Char) : Bool :=
  let n := c.toNat
  (0x09 ≤ n && n ≤ 0x0D) || n == 0x20 || n == 0x85 || n == 0xA0 || n == 0x1680 ||
    (0x2000 ≤ n && n ≤ 0x200A) || n == 0x2028 || n == 0x2029 || n == 0x202F || n == 0x205F ||
    n == 0x3000

def trimEnd (s : List Char) : List Char := (s.reverse.dropWhile isBlank).reverse

def trim (s : List Char) : List Char := trimEnd (s.dropWhile isBlank)

def words (s : List Char) : List (List Char) := (splitWhere isBlank s).filter (!·.isEmpty)

end BusScope.Text
