import BusScope.Yaml.ScalarText
import BusScope.Yaml.Tag

/-!
The tokens of a YAML text. Block collections have no marks of their own: they begin where a key or
a dash stands further in than what encloses them, and end where the indentation falls back. A key
needs no mark either, so each place where one may begin is remembered until a colon shows that it
did, its line ends, or it grows too long.
-/

namespace BusScope.Yaml

inductive ScalarForm where
  | plain
  | literal
  | other
deriving DecidableEq, Repr

inductive Token where
  | directive (d : Directive)
  | documentStart
  | documentEnd
  | blockSequence
  | blockMapping
  | blockEnd
  | openSequence
  | closeSequence
  | openMapping
  | closeMapping
  | dash
  | comma
  | key
  | colon
  | anchor (name : List Char)
  | reference (name : List Char)
  | tag (t : TagText)
  | scalar (form : ScalarForm) (text : List Char)
deriving DecidableEq

/-- A place where a key may have begun: before which token, and where in the text. It must be one if
nothing else may stand in its column. -/
structure KeyPlace where
  token : Nat
  line : Nat
  index : Nat
  column : Nat
  required : Bool

/-- `places` has one entry for the text outside brackets and one for each open bracket, innermost
first. `indents` are the columns of the open block collections, innermost first. -/
structure Lexer where
  cursor : Cursor
  tokens : List Token := []
  places : List (Option KeyPlace) := [none]
  indents : List Nat := []
  keyAllowed : Bool := true

namespace Lexer

def inFlow (l : Lexer) : Bool := 1 < l.places.length

def push (l : Lexer) (t : Token) : Lexer := { l with tokens := l.tokens ++ [t] }

def take (l : Lexer) (t : Token) (width : Nat) : Lexer :=
  { l.push t with cursor := l.cursor.advance width }

def allowKey (l : Lexer) (allowed : Bool) : Lexer := { l with keyAllowed := allowed }

def isIndented (l : Lexer) (column : Nat) : Bool := l.indents.head?.all (· < column)

/-- Begins a block collection if the column is further in than the last one. The token goes to the
given place. -/
def beginBlock (l : Lexer) (column place : Nat) (t : Token) : Lexer :=
  if !l.inFlow && l.isIndented column then
    { l with indents := column :: l.indents, tokens := l.tokens.insertIdx place t }
  else l

def endBlocks (l : Lexer) (column : Option Nat) : Lexer :=
  if l.inFlow then l
  else
    let open? := l.indents.dropWhile fun i => column.all (· < i)
    let ended := l.indents.length - open?.length
    { l with indents := open?, tokens := l.tokens ++ List.replicate ended .blockEnd }

/-- No key began at the innermost place, which is an error if one had to. -/
def dropPlace (l : Lexer) : Option Lexer :=
  match l.places with
  | some p :: outer => if p.required then none else some { l with places := none :: outer }
  | _ => some l

def markPlace (l : Lexer) : Option Lexer :=
  if l.keyAllowed then
    let c := l.cursor
    let required := !l.inFlow && l.indents.head? == some c.column
    let place : KeyPlace := ⟨l.tokens.length, c.line, c.index, c.column, required⟩
    l.dropPlace.map fun l => { l with places := some place :: l.places.drop 1 }
  else some l

def forgetPlaces (l : Lexer) : Option Lexer := do
  let places ← l.places.mapM fun place? => match place? with
    | none => some none
    | some p =>
      if p.line < l.cursor.line ∨ p.index + 1024 < l.cursor.index then
        if p.required then none else some none
      else some (some p)
  return { l with places := places }

/-- Skips blanks, comments and line ends. Tabs are blanks only where no key can begin. -/
def skipGaps : Nat → Lexer → Lexer
  | 0, l => l
  | fuel + 1, l =>
    let c := l.cursor
    let c := if c.column == 0 && c.sees '\ufeff' then c.next else c
    let tabs := l.inFlow || !l.keyAllowed
    let c := c.skipWhile fun ch => isSpace ch || (tabs && ch == '\t')
    let c := if c.sees '#' then c.skipWhile (!isBreak ·) else c
    let (ending, after) := c.lineEnd
    if ending.isEmpty then { l with cursor := c }
    else skipGaps fuel { l with cursor := after, keyAllowed := l.keyAllowed || !l.inFlow }

def leaveContent (l : Lexer) : Option Lexer :=
  ((l.endBlocks none).dropPlace).map (·.allowKey false)

def directive (l : Lexer) : Option Lexer := do
  let l ← l.leaveContent
  let (d, c) ← readDirective l.cursor
  return { l.push (.directive d) with cursor := c }

def documentMark (l : Lexer) (t : Token) : Option Lexer := l.leaveContent.map (·.take t 3)

def openBracket (l : Lexer) (t : Token) : Option Lexer :=
  l.markPlace.map fun l => { (l.take t 1).allowKey true with places := none :: l.places }

def closeBracket (l : Lexer) (t : Token) : Option Lexer :=
  l.dropPlace.map fun l =>
    { (l.take t 1).allowKey false with
      places := if l.inFlow then l.places.drop 1 else l.places }

def comma (l : Lexer) : Option Lexer := l.dropPlace.map fun l => (l.take .comma 1).allowKey true

def dash (l : Lexer) : Option Lexer :=
  if !l.inFlow && !l.keyAllowed then none
  else
    ((l.beginBlock l.cursor.column l.tokens.length .blockSequence).dropPlace).map fun l =>
      (l.take .dash 1).allowKey true

def keyMark (l : Lexer) : Option Lexer :=
  if !l.inFlow && !l.keyAllowed then none
  else
    ((l.beginBlock l.cursor.column l.tokens.length .blockMapping).dropPlace).map fun l =>
      (l.take .key 1).allowKey !l.inFlow

/-- A colon turns what was written since the last place into a key. -/
def colon (l : Lexer) : Option Lexer :=
  match l.places with
  | some p :: outer =>
    let l := { l with tokens := l.tokens.insertIdx p.token .key, places := none :: outer }
    some (((l.beginBlock p.column p.token .blockMapping).take .colon 1).allowKey false)
  | _ =>
    if !l.inFlow && !l.keyAllowed then none
    else
      let l := l.beginBlock l.cursor.column l.tokens.length .blockMapping
      some ((l.take .colon 1).allowKey !l.inFlow)

def named (l : Lexer) (t : List Char → Token) : Option Lexer := do
  let l ← l.markPlace
  let (name, c) := l.cursor.next.takeWhile isNameChar
  let ended := startsWithGap c.rest || c.rest.head?.any fun ch => "?:,]\x7d%@\x60".toList.contains ch
  if name.isEmpty || !ended then failure
  return { (l.push (t name)).allowKey false with cursor := c }

def tag (l : Lexer) : Option Lexer := do
  let l ← l.markPlace
  let (t, c) ← readTag l.inFlow l.cursor
  return { (l.push (.tag t)).allowKey false with cursor := c }

def block (l : Lexer) (literal : Bool) : Option Lexer := do
  let l ← l.dropPlace
  let (text, c) ← readBlock literal l.indents.head? l.cursor
  let form : ScalarForm := if literal then .literal else .other
  return { (l.push (.scalar form text)).allowKey true with cursor := c }

def quoted (l : Lexer) (mark : Char) : Option Lexer := do
  let l ← l.markPlace
  let (text, c) ← readQuoted mark l.cursor
  return { (l.push (.scalar .other text)).allowKey false with cursor := c }

def plain (l : Lexer) : Option Lexer := do
  let l ← l.markPlace
  let indent := match l.indents.head? with
    | none => 0
    | some n => n + 1
  let (text, crossed, c) ← readPlain l.inFlow indent l.cursor
  return { (l.push (.scalar .plain text)).allowKey crossed with cursor := c }

def startsPlain (l : Lexer) (c : Char) (rest : List Char) : Bool :=
  !(isGap c || "-?:,[]\x7b\x7d#&*!|>'\"%@\x60".toList.contains c) ||
    (c == '-' && !rest.head?.any isWhite) ||
    (!l.inFlow && (c == '?' || c == ':') && !startsWithGap rest)

/-- The token at the cursor, which stands neither on a gap nor at the end. -/
def token (l : Lexer) (c : Char) (rest : List Char) : Option Lexer :=
  let ended := startsWithGap rest
  if l.cursor.column = 0 ∧ c = '%' then l.directive
  else if l.cursor.atDocumentMark then
    l.documentMark (if c = '-' then .documentStart else .documentEnd)
  else match c with
    | '[' => l.openBracket .openSequence
    | '\x7b' => l.openBracket .openMapping
    | ']' => l.closeBracket .closeSequence
    | '\x7d' => l.closeBracket .closeMapping
    | ',' => l.comma
    | '*' => l.named .reference
    | '&' => l.named .anchor
    | '!' => l.tag
    | '\x27' | '"' => l.quoted c
    | _ =>
      if c = '-' ∧ ended then l.dash
      else if c = '?' ∧ (l.inFlow ∨ ended) then l.keyMark
      else if c = ':' ∧ (l.inFlow ∨ ended) then l.colon
      else if c = '|' ∧ !l.inFlow then l.block true
      else if c = '>' ∧ !l.inFlow then l.block false
      else if l.startsPlain c rest then l.plain
      else none

def run : Nat → Lexer → Option (List Token)
  | 0, _ => none
  | fuel + 1, l => do
    let l ← (l.skipGaps (l.cursor.rest.length + 1)).forgetPlaces
    let l := l.endBlocks (some l.cursor.column)
    match l.cursor.rest with
    | [] => return (← (l.endBlocks none).dropPlace).tokens
    | c :: rest => run fuel (← l.token c rest)

end Lexer

def Token.scan (text : List Char) : Option (List Token) :=
  if text.all isAllowed then Lexer.run (text.length + 1) { cursor := { rest := text } } else none

end BusScope.Yaml
