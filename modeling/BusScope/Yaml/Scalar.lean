import BusScope.Number.Reading
import BusScope.Text.Hex
import BusScope.Text.Split

/-!
What an unquoted YAML scalar stands for. Besides text that is null, true or false, an integer in
one of four bases, or a float. Digits after a leading zero are neither integer nor float.
-/

namespace BusScope.Yaml

open Number Text

def isNull (s : List Char) : Bool :=
  ["null", "Null", "NULL", "~"].any fun t => t.toList == s

def bool? (s : List Char) : Option Bool :=
  if ["true", "True", "TRUE"].any fun t => t.toList == s then some true
  else if ["false", "False", "FALSE"].any fun t => t.toList == s then some false
  else none

def hasLeadingZero (s : List Char) : Bool :=
  match (splitSign s).2 with
  | '0' :: d :: rest => (d :: rest).all isDigit
  | _ => false

def radix? (s : List Char) : Option Nat :=
  match s with
  | '0' :: 'x' :: digits => natOfDigits? 16 Hex.value? digits
  | '0' :: 'o' :: digits => natOfDigits? 8 decimalDigit? digits
  | '0' :: 'b' :: digits => natOfDigits? 2 decimalDigit? digits
  | _ => none

def natural? (limit : Nat) (s : List Char) : Option Nat :=
  let digits := match s with
    | '+' :: rest => rest
    | rest => rest
  let n? := (radix? digits).or (if hasLeadingZero s then none else decimal? digits)
  n?.filter (· < limit)

def negative? (limit : Nat) (s : List Char) : Option Int :=
  match s with
  | '-' :: rest =>
    let n? := (radix? rest).or (if hasLeadingZero s then none else decimal? rest)
    (n?.filter (· ≤ limit)).map fun n => -(n : Int)
  | _ => none

def isOneOf (forms : List String) (s : List Char) : Bool := forms.any fun t => t.toList == s

/-- A float. Infinity and not-a-number have names of their own, and a number too large to be finite
is none. -/
def float? (s : List Char) : Option Binary64 :=
  let unsigned? : Option (List Char) := match s with
    | '+' :: '+' :: _ | '+' :: '-' :: _ => none
    | '+' :: rest => some rest
    | rest => some rest
  match unsigned? with
  | none => none
  | some unsigned =>
    if isOneOf [".inf", ".Inf", ".INF"] unsigned then some ⟨0x7FF0000000000000⟩
    else if isOneOf ["-.inf", "-.Inf", "-.INF"] s then some ⟨0xFFF0000000000000⟩
    else if isOneOf [".nan", ".NaN", ".NAN"] s then some ⟨0x7FF8000000000000⟩
    else (Numeral.ofChars? unsigned).bind Numeral.toBinary?

/-- Whether the text would be read as something other than a text, were it written without
quotes. -/
def needsQuotes (s : List Char) : Bool :=
  s.isEmpty || isNull s || (bool? s).isSome || (natural? (1 <<< 128) s).isSome ||
    (negative? (1 <<< 127) s).isSome || hasLeadingZero s || (float? s).isSome

end BusScope.Yaml
