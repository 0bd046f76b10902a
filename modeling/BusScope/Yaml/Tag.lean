import BusScope.Text.Hex
import BusScope.Text.Utf8
import BusScope.Yaml.Cursor

/-!
Reading tags and directives. A tag is a handle and a suffix, or a verbatim text in angle brackets;
directives state the version of a document and what its tag handles stand for. Tags are kept as
bytes, since escapes in them need not spell characters.
-/

namespace BusScope.Yaml

open Text

def ofText (s : List Char) : List UInt8 := Utf8.encode s

def isUriChar (more : List Char) (c : Char) : Bool :=
  isNameChar c || ";/?:@&=+$.!~*'()".toList.contains c || more.contains c

def hexByte? (s : List Char) : Option UInt8 :=
  match s with
  | '%' :: a :: b :: _ => do return (16 * (← Hex.value? a) + (← Hex.value? b)).toUInt8
  | _ => none

def sequenceWidth? (b : UInt8) : Option Nat :=
  if b < 0x80 then some 1
  else if b.toNat / 32 = 6 then some 2
  else if b.toNat / 16 = 14 then some 3
  else if b.toNat / 8 = 30 then some 4
  else none

def escapedBytes? (s : List Char) : Option (List UInt8) := do
  let first ← hexByte? s
  let width ← sequenceWidth? first
  let tail ← (List.range (width - 1)).mapM fun k => do
    let b ← hexByte? (s.drop (3 * (k + 1)))
    if b.toNat / 64 = 2 then some b else none
  return first :: tail

def readUri (more : List Char) : Nat → Cursor → Option (List UInt8 × Cursor)
  | 0, _ => none
  | fuel + 1, c =>
    match c.rest with
    | [] => some ([], c)
    | ch :: _ =>
      if ch = '%' then
        match escapedBytes? c.rest with
        | none => none
        | some bytes => (readUri more fuel (c.advance (3 * bytes.length))).map fun r =>
          (bytes ++ r.1, r.2)
      else if isUriChar more ch then
        (readUri more fuel c.next).map fun r => (ofText [ch] ++ r.1, r.2)
      else some ([], c)

def uri (more : List Char) (c : Cursor) : Option (List UInt8 × Cursor) :=
  readUri more (c.rest.length + 1) c

def readHandle (c : Cursor) : Option (List Char × Cursor) :=
  if c.sees '!' then
    let (name, after) := c.next.takeWhile isNameChar
    if after.sees '!' then some ('!' :: name ++ ['!'], after.next) else some ('!' :: name, after)
  else none

/-- `handle` is empty for a tag that stands for itself. -/
structure TagText where
  handle : List Char
  suffix : List UInt8
deriving DecidableEq

/-- A tag, up to the blank after it. Inside brackets it may also end at a comma. -/
def readTag (inFlow : Bool) (c : Cursor) : Option (TagText × Cursor) := do
  let (tag, c) ←
    if c.rest[1]? = some '<' then do
      let (suffix, c) ← uri [',', '[', ']'] (c.advance 2)
      if suffix.isEmpty || !c.sees '>' then failure
      pure (TagText.mk [] suffix, c.next)
    else do
      let (handle, c) ← readHandle c
      if 2 ≤ handle.length ∧ handle.getLast? = some '!' then
        let (suffix, c) ← uri [] c
        if suffix.isEmpty then failure
        pure (TagText.mk handle suffix, c)
      else
        let (more, c) ← uri [] c
        let suffix := ofText (handle.drop 1) ++ more
        pure (if suffix.isEmpty then (TagText.mk [] (ofText ['!']), c)
          else (TagText.mk ['!'] suffix, c))
  if startsWithGap c.rest || (inFlow && c.sees ',') then return (tag, c) else failure

/-- `stands` is what the handle stands for. -/
inductive Directive where
  | version (major minor : Nat)
  | handle (handle : List Char) (stands : List UInt8)
deriving DecidableEq

def readNumber (c : Cursor) : Option (Nat × Cursor) :=
  let (digits, after) := c.takeWhile Char.isDigit
  if digits.isEmpty ∨ 9 < digits.length then none
  else some (digits.foldl (fun n d => n * 10 + (d.toNat - 0x30)) 0, after)

def readVersion (c : Cursor) : Option (Directive × Cursor) := do
  let (major, c) ← readNumber c
  let (minor, c) ← if c.sees '.' then readNumber c.next else none
  return (.version major minor, c)

def readHandleDirective (c : Cursor) : Option (Directive × Cursor) := do
  let (handle, c) ← readHandle c
  if handle.getLast? ≠ some '!' || !c.rest.head?.any isWhite then failure
  let (stands, c) ← uri [',', '[', ']'] (c.skipWhile isWhite)
  if stands.isEmpty || !startsWithGap c.rest then failure
  return (.handle handle stands, c)

def readDirective (c : Cursor) : Option (Directive × Cursor) := do
  let (name, c) := c.next.takeWhile isNameChar
  if !startsWithGap c.rest then failure
  let (directive, c) ←
    if name = "YAML".toList then readVersion (c.skipWhile isWhite)
    else if name = "TAG".toList then readHandleDirective (c.skipWhile isWhite)
    else none
  let c := c.skipWhile isWhite
  let c := if c.sees '#' then c.skipWhile (!isBreak ·) else c
  if c.atLineEnd then return (directive, c.lineEnd.2) else failure

end BusScope.Yaml
