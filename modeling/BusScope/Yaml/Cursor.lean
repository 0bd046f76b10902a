import BusScope.Yaml.Character

/-!
A place in a text that is being read, with its line and column, and the folding of line ends: a
single line end inside a scalar stands for a space, and further ones stand for themselves.
-/

namespace BusScope.Yaml

structure Cursor where
  rest : List Char
  index : Nat := 0
  line : Nat := 0
  column : Nat := 0

namespace Cursor

/-- Past one character. A carriage return before a line feed is part of the same line end. -/
def next (c : Cursor) : Cursor :=
  match c.rest with
  | [] => c
  | '\r' :: '\n' :: rest => { c with rest := '\n' :: rest, index := c.index + 1 }
  | ch :: rest =>
    if isBreak ch then ⟨rest, c.index + 1, c.line + 1, 0⟩
    else ⟨rest, c.index + 1, c.line, c.column + 1⟩

def advance : Nat → Cursor → Cursor
  | 0, c => c
  | n + 1, c => advance n c.next

def takeWhile (p : Char → Bool) (c : Cursor) : List Char × Cursor :=
  let run := c.rest.takeWhile p
  (run, c.advance run.length)

def skipWhile (p : Char → Bool) (c : Cursor) : Cursor := (c.takeWhile p).2

def sees (c : Cursor) (ch : Char) : Bool := c.rest.head? == some ch

def atLineEnd (c : Cursor) : Bool := c.rest.head?.all isBreak

def atDocumentMark (c : Cursor) : Bool :=
  c.column == 0 && (['-', '-', '-'].isPrefixOf c.rest || ['.', '.', '.'].isPrefixOf c.rest) &&
    startsWithGap (c.rest.drop 3)

end Cursor

/-- Line ends other than the separators of lines and paragraphs are read as a line feed. -/
def plainBreak (c : Char) : Char :=
  if c.toNat = 0x2028 ∨ c.toNat = 0x2029 then c else '\n'

def breaksIn : List Char → List Char
  | [] => []
  | '\r' :: '\n' :: rest => '\n' :: breaksIn rest
  | c :: rest => if isBreak c then plainBreak c :: breaksIn rest else breaksIn rest

/-- What a run of blanks and line ends inside a scalar stands for. -/
def folded (run : List Char) : List Char :=
  match breaksIn run with
  | [] => run
  | ['\n'] => [' ']
  | '\n' :: more => more
  | breaks => breaks

def isBlankOrBreak (c : Char) : Bool := isWhite c || isBreak c

def Cursor.lineEnd (c : Cursor) : List Char × Cursor :=
  match c.rest with
  | '\r' :: '\n' :: _ => (['\n'], c.advance 2)
  | ch :: _ => if isBreak ch then ([plainBreak ch], c.next) else ([], c)
  | [] => ([], c)

end BusScope.Yaml
