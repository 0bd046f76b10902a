/-!
Classes of characters in YAML text: line breaks, gaps between words, and what may be written as it
is.
-/

namespace BusScope.Yaml

def isBreak (c : Char) : Bool :=
  let n := c.toNat
  n == 0x0A || n == 0x0D || n == 0x85 || n == 0x2028 || n == 0x2029

def isSpace (c : Char) : Bool := c == ' '

def isWhite (c : Char) : Bool := c == ' ' || c == '\t'

def isGap (c : Char) : Bool := isWhite c || c == '\x00' || isBreak c

def startsWithGap (s : List Char) : Bool := s.head?.all isGap

def isPrintable (c : Char) : Bool :=
  let n := c.toNat
  n == 0x0A || (0x20 ≤ n && n ≤ 0x7E) || (0xA0 ≤ n && n != 0xFEFF && n != 0xFFFE && n != 0xFFFF)

def isAllowed (c : Char) : Bool :=
  let n := c.toNat
  n == 0x09 || n == 0x0A || n == 0x0D || (0x20 ≤ n && n ≤ 0x7E) || n == 0x85 ||
    (0xA0 ≤ n && n != 0xFFFE && n != 0xFFFF)

/-- Characters of the names of anchors, directives and tag handles. -/
def isNameChar (c : Char) : Bool := c.isAlphanum || c == '_' || c == '-'

end BusScope.Yaml
