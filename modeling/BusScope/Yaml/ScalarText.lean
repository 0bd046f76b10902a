import BusScope.Text.Hex
import BusScope.Yaml.Cursor

/-!
Reading the text of a scalar: in quotes, without quotes, or line by line after a header. Each
reader gives the text and the place after it, or nothing if the text is malformed.
-/

namespace BusScope.Yaml

open Text

def escape? (c : Char) : Option Char :=
  match c with
  | '0' => some '\x00'
  | 'a' => some '\x07'
  | 'b' => some '\x08'
  | 't' | '\t' => some '\t'
  | 'n' => some '\n'
  | 'v' => some '\x0b'
  | 'f' => some '\x0c'
  | 'r' => some '\r'
  | 'e' => some '\x1b'
  | ' ' | '"' | '/' | '\\' => some c
  | 'N' => some (Char.ofNat 0x85)
  | '_' => some (Char.ofNat 0xA0)
  | 'L' => some (Char.ofNat 0x2028)
  | 'P' => some (Char.ofNat 0x2029)
  | _ => none

def escapeWidth? (c : Char) : Option Nat :=
  match c with
  | 'x' => some 2
  | 'u' => some 4
  | 'U' => some 8
  | _ => none

def hexNumber? (digits : List Char) : Option Nat :=
  digits.foldl (fun n c => do return (← n) * 16 + (← Hex.value? c)) (some 0)

def codePoint? (digits : List Char) (width : Nat) : Option Char := do
  let n ← if digits.length = width then hexNumber? digits else none
  if h : n.isValidChar then some (Char.ofNatAux n h) else none

/-- The character that an escape after a backslash stands for, and how many characters it takes. -/
def readEscape (s : List Char) : Option (Char × Nat) := do
  let c ← s.head?
  match escapeWidth? c with
  | some width => return (← codePoint? ((s.drop 1).take width) width, width + 1)
  | none => return (← escape? c, 1)

def quotedText (mark : Char) : Nat → Cursor → Option (List Char × Cursor)
  | 0, _ => none
  | fuel + 1, c =>
    let continueWith (text : List Char) (c : Cursor) : Option (List Char × Cursor) :=
      (quotedText mark fuel c).map fun r => (text ++ r.1, r.2)
    if c.atDocumentMark then none
    else match c.rest with
      | [] => none
      | ch :: rest =>
        if ch = mark then
          if mark = '\x27' ∧ rest.head? = some mark then continueWith [mark] (c.advance 2)
          else some ([], c.next)
        else if mark = '"' ∧ ch = '\\' then
          let joined := c.next.lineEnd
          if joined.1.isEmpty then
            match readEscape rest with
            | some (e, n) => continueWith [e] (c.advance (n + 1))
            | none => none
          else
            let (run, c) := joined.2.takeWhile isBlankOrBreak
            continueWith (breaksIn run) c
        else if isBlankOrBreak ch then
          let (run, c) := c.takeWhile isBlankOrBreak
          continueWith (folded run) c
        else continueWith [ch] c.next

def readQuoted (mark : Char) (c : Cursor) : Option (List Char × Cursor) :=
  quotedText mark (c.rest.length + 1) c.next

/-- A run without gaps of a scalar without quotes. Inside brackets it also ends at an indicator, and
a colon right before one is refused. -/
def plainRun (inFlow : Bool) : List Char → Option (List Char)
  | [] => some []
  | c :: rest =>
    if isGap c then some []
    else if inFlow && c == ':' && rest.head?.any (fun d => ",?[]\x7b\x7d".toList.contains d) then none
    else if c == ':' && startsWithGap rest then some []
    else if inFlow && ",[]\x7b\x7d".toList.contains c then some []
    else (plainRun inFlow rest).map (c :: ·)

def hasTabIndent (indent : Nat) (fresh : Bool) (column : Nat) : List Char → Bool
  | [] => false
  | c :: rest =>
    if isBreak c then hasTabIndent indent true 0 rest
    else (fresh && c == '\t' && column < indent) || hasTabIndent indent fresh (column + 1) rest

/-- A scalar without quotes. `gap` and `crossed` tell of the blanks before the cursor: what they
stand for, and whether a line ends there. -/
def plainText (inFlow : Bool) (indent : Nat) :
    Nat → List Char → Bool → Cursor → Option (List Char × Bool × Cursor)
  | 0, _, _, _ => none
  | fuel + 1, gap, crossed, c =>
    if c.atDocumentMark || c.sees '#' then some ([], crossed, c)
    else match plainRun inFlow c.rest with
      | none => none
      | some [] => some ([], crossed, c)
      | some word =>
        let c := c.advance word.length
        let (run, after) := c.takeWhile isBlankOrBreak
        let crossed := !(breaksIn run).isEmpty
        if run.isEmpty then some (gap ++ word, false, c)
        else if hasTabIndent indent false c.column run then none
        else if !inFlow && after.column < indent then some (gap ++ word, crossed, after)
        else (plainText inFlow indent fuel (folded run) crossed after).map fun r =>
          (gap ++ word ++ r.1, r.2)

def readPlain (inFlow : Bool) (indent : Nat) (c : Cursor) : Option (List Char × Bool × Cursor) :=
  plainText inFlow indent (c.rest.length + 1) [] false c

inductive Chomping where
  | strip
  | clip
  | keep
deriving DecidableEq, Repr

def blockSigns (s : List Char) : Option (Chomping × Nat × Nat) :=
  let chomping? (c : Option Char) : Option Chomping := match c with
    | some '+' => some .keep
    | some '-' => some .strip
    | _ => none
  let digit? (c : Option Char) : Option Nat :=
    (c.filter Char.isDigit).map fun d => d.toNat - 0x30
  let first := s[0]?
  let second := s[1]?
  match chomping? first, digit? first with
  | some chomping, _ => match digit? second with
    | some 0 => none
    | some d => some (chomping, d, 2)
    | none => some (chomping, 0, 1)
  | none, some 0 => none
  | none, some d => match chomping? second with
    | some chomping => some (chomping, d, 2)
    | none => some (.clip, d, 1)
  | none, none => some (.clip, 0, 0)

/-- Skips empty lines and the indentation of the line after them. Gives the largest column reached
and the line ends; the indentation is not known yet if it is zero. -/
def emptyLines (indent : Nat) : Nat → Nat → Cursor → Option (Nat × List Char × Cursor)
  | 0, _, _ => none
  | fuel + 1, deepest, c =>
    let room := (c.rest.takeWhile isSpace).length
    let c := c.advance (if indent = 0 then room else min room (indent - c.column))
    let deepest := max deepest c.column
    if (indent = 0 || c.column < indent) && c.sees '\t' then none
    else
      let (ending, after) := c.lineEnd
      if ending.isEmpty then some (deepest, [], c)
      else (emptyLines indent fuel deepest after).map fun r => (r.1, ending ++ r.2.1, r.2.2)

/-- The lines of a block scalar. `ending` and `blanks` are the line ends after the line before, of
which `white` tells whether it begins with a blank. Gives them for the last line, too. -/
def blockLines (literal : Bool) (indent : Nat) :
    Nat → List Char → List Char → Bool → Cursor →
      Option (List Char × List Char × List Char × Cursor)
  | 0, _, _, _, _ => none
  | fuel + 1, ending, blanks, white, c =>
    if c.column ≠ indent ∨ c.rest.isEmpty then some ([], ending, blanks, c)
    else
      let deeper := c.rest.head?.any isWhite
      let fold := !literal && ending == ['\n'] && !white && !deeper
      let joint := if fold then (if blanks.isEmpty then [' '] else []) else ending
      let (line, c) := c.takeWhile (!isBreak ·)
      let (ending, c) := c.lineEnd
      match emptyLines indent (c.rest.length + 1) 0 c with
      | none => none
      | some (_, after, c) =>
        (blockLines literal indent fuel ending after deeper c).map fun r =>
          (joint ++ blanks ++ line ++ r.1, r.2)

def readBlock (literal : Bool) (parent : Option Nat) (c : Cursor) :
    Option (List Char × Cursor) := do
  let c := c.next
  let (chomping, increment, width) ← blockSigns c.rest
  let c := (c.advance width).skipWhile isWhite
  let c := if c.sees '#' then c.skipWhile (!isBreak ·) else c
  if !c.atLineEnd then failure
  let c := c.lineEnd.2
  let least := match parent with
    | none => 0
    | some n => n + 1
  let stated := if increment = 0 then 0 else parent.getD 0 + increment
  let (deepest, blanks, c) ← emptyLines stated (c.rest.length + 1) 0 c
  let indent := if stated = 0 then max (max deepest least) 1 else stated
  let (text, ending, blanks, c) ← blockLines literal indent (c.rest.length + 1) [] blanks false c
  return (match chomping with
    | .strip => text
    | .clip => text ++ ending
    | .keep => text ++ ending ++ blanks, c)

end BusScope.Yaml
