import BusScope.Number.Shortest

/-!
How a floating-point number is laid out as text: which exponents are written positionally, whether
a whole number keeps its `.0`, how an exponent is marked, and what stands for the values that are
not finite.
-/

namespace BusScope.Number

/-- `positional e` tells whether a number whose leading digit has exponent `e` is written without
an exponent part. -/
structure Layout where
  positional : Int → Bool
  pointZero : Bool
  plusSign : Bool
  tie : Tie
  nan : String
  infinite : String

def zeros (n : Nat) : String := String.ofList (List.replicate n '0')

def Layout.digits (l : Layout) (d : Decimal) : String :=
  let text := toString d.digits
  let size := text.length
  let lead := d.exponent + (size : Int) - 1
  let whole := if l.pointZero then ".0" else ""
  let cut (n : Nat) : String :=
    String.ofList (text.toList.take n) ++ "." ++ String.ofList (text.toList.drop n)
  if d.digits = 0 then "0" ++ whole
  else if l.positional lead then
    if 0 ≤ d.exponent then text ++ zeros d.exponent.toNat ++ whole
    else if 0 ≤ lead then cut (lead.toNat + 1)
    else "0." ++ zeros (-lead - 1).toNat ++ text
  else
    let mantissa := if size = 1 then text else cut 1
    let sign := if lead < 0 then "-" else if l.plusSign then "+" else ""
    mantissa ++ "e" ++ sign ++ toString lead.natAbs

def Layout.write (l : Layout) : Unpacked → String
  | .nan => l.nan
  | .infinite negative => (if negative then "-" else "") ++ l.infinite
  | .finite x => (if x.negative then "-" else "") ++ l.digits (x.shortest l.tie)

def Layout.plain : Layout := ⟨fun _ => true, false, false, .up, "NaN", "inf"⟩

def Layout.diagnostic : Layout :=
  ⟨fun e => -4 ≤ e && e < 16, true, false, .up, "NaN", "inf"⟩

end BusScope.Number
