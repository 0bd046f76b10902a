import BusScope.Yaml.Character
import BusScope.Yaml.Scalar

/-!
How a text is written as a YAML scalar: as it stands where nothing in it could be taken for
something else, in single quotes where that is enough, line by line after a header when it has
several lines, and otherwise in double quotes with escapes.
-/

namespace BusScope.Yaml

open Text

def isIndicator (c : Char) : Bool := "#,[]\x7b\x7d&*!|>'\"%@\x60".toList.contains c

/-- Whether something after the first character could be read as a comment or a mapping, where `gap`
tells whether a gap comes before the text. -/
def breaksOff (gap : Bool) : List Char → Bool
  | [] => false
  | c :: rest =>
    (c == ':' && startsWithGap rest) || (c == '#' && gap) || breaksOff (isGap c) rest

def hasIndicator (s : List Char) : Bool :=
  ['-', '-', '-'].isPrefixOf s || ['.', '.', '.'].isPrefixOf s ||
    match s with
    | [] => false
    | c :: rest => isIndicator c || ((c == '?' || c == ':' || c == '-') && startsWithGap rest) ||
      breaksOff (isGap c) rest

def hasPair (p q : Char → Bool) : List Char → Bool
  | a :: b :: rest => (p a && q b) || hasPair p q (b :: rest)
  | _ => false

def needsEscapes (s : List Char) : Bool :=
  s.any (fun c => !isPrintable c) || hasPair isSpace isBreak s

def allowsPlain (s : List Char) : Bool :=
  let atEdge (c? : Option Char) : Bool := c?.any fun c => isSpace c || isBreak c
  !(hasIndicator s || atEdge s.head? || atEdge s.getLast? || s.any isBreak || needsEscapes s)

def allowsSingle (s : List Char) : Bool := !(hasPair isBreak isSpace s || needsEscapes s)

def allowsLiteral (s : List Char) : Bool := !(s.getLast?.any isSpace || needsEscapes s)

inductive Style where
  | plain
  | single
  | double
  | literal
deriving DecidableEq, Repr

def Style.of (s : List Char) : Style :=
  if s.contains '\n' then (if allowsLiteral s then .literal else .double)
  else if !needsQuotes s && allowsPlain s then .plain
  else if allowsSingle s then .single
  else .double

def spaces (n : Nat) : List Char := List.replicate n ' '

/-- The text with each non-empty line put at the given column; the cursor is at the start of a line
if `fresh`. -/
def indented (column : Nat) (fresh : Bool) : List Char → List Char
  | [] => []
  | c :: rest =>
    if isBreak c then c :: indented column true rest
    else (if fresh then spaces column else []) ++ c :: indented column false rest

def doubled (c : Char) : List Char := if c = '\x27' then [c, c] else [c]

/-- In single quotes a quote is written twice. What follows the end of a line, be it the closing
quote, is put at the given column. -/
def singleQuoted (column : Nat) (s : List Char) : List Char :=
  let close := if s.getLast?.any isBreak then spaces column else []
  '\x27' :: (indented column false s).flatMap doubled ++ close ++ ['\x27']

def escaped (c : Char) : List Char :=
  let n := c.toNat
  let hex (mark : Char) (width : Nat) : List Char := mark :: Hex.fixed Hex.upperDigit width n
  if isPrintable c && !isBreak c && c != '"' && c != '\\' then [c]
  else '\\' ::
    if c = '"' ∨ c = '\\' then [c]
    else match n with
      | 0x00 => ['0'] | 0x07 => ['a'] | 0x08 => ['b'] | 0x09 => ['t'] | 0x0A => ['n']
      | 0x0B => ['v'] | 0x0C => ['f'] | 0x0D => ['r'] | 0x1B => ['e'] | 0x85 => ['N']
      | 0x2028 => ['L'] | 0x2029 => ['P']
      | _ => if n ≤ 0xFF then hex 'x' 2 else if n ≤ 0xFFFF then hex 'u' 4 else hex 'U' 8

def doubleQuoted (s : List Char) : List Char := '"' :: s.flatMap escaped ++ ['"']

def chomping (s : List Char) : List Char :=
  match s.reverse with
  | [] => ['-']
  | last :: before =>
    if !isBreak last then ['-'] else if before.head?.all isBreak then ['+'] else []

/-- The width of the indentation is stated where the first line does not show it. -/
def literalHeader (s : List Char) : List Char :=
  '|' :: (if s.head?.any fun c => isSpace c || isBreak c then ['2'] else []) ++ chomping s

def literal (column : Nat) (s : List Char) : List Char :=
  literalHeader s ++ '\n' :: indented column true s

def scalar (column : Nat) (s : List Char) : List Char :=
  match Style.of s with
  | .plain => s
  | .single => singleQuoted column s
  | .double => doubleQuoted s
  | .literal => literal column s

end BusScope.Yaml
