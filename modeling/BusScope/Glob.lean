import BusScope.Text.Split

/-!
Name patterns: a star stands for any run of characters, a question mark for exactly one, and any
other character for itself. A pattern is cut at its stars. The first piece has to open the text and
the last to close it; each piece between is taken at its earliest place, which leaves the most room
for the pieces after it.
-/

namespace BusScope.Glob

open Text

def fits (p c : Char) : Bool := p == '?' || p == c

/-- What is left of a text that opens with a piece. -/
def open? : List Char → List Char → Option (List Char)
  | [], text => some text
  | _ :: _, [] => none
  | p :: piece, c :: text => if fits p c then open? piece text else none

/-- What is left after the earliest place where a piece occurs. -/
def seek? (piece : List Char) : List Char → Option (List Char)
  | [] => open? piece []
  | c :: text => (open? piece (c :: text)).or (seek? piece text)

def closes (piece text : List Char) : Bool :=
  piece.length ≤ text.length && open? piece (text.drop (text.length - piece.length)) == some []

def afterStar : List (List Char) → List Char → Bool
  | [], text => text.isEmpty
  | [last], text => closes last text
  | piece :: rest, text =>
    match seek? piece text with
    | none => false
    | some text => afterStar rest text

def run (pattern text : List Char) : Bool :=
  match splitAt '*' pattern with
  | [] => text.isEmpty
  | [only] => open? only text == some []
  | first :: rest =>
    match open? first text with
    | none => false
    | some text => afterStar rest text

def isMatch (pattern text : String) : Bool := run pattern.toList text.toList

end BusScope.Glob
