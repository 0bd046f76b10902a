import BusScope.Number.Binary

/-!
Reading decimal text as a number of the long format: the nearest one, of two equally near the one
with an even significand, and none if the number is too large to be finite.
-/

namespace BusScope.Number

structure Numeral where
  negative : Bool
  digits : Nat
  exponent : Int
deriving DecidableEq, Repr

def decimalDigit? (c : Char) : Option Nat :=
  if '0' ≤ c ∧ c ≤ '9' then some (c.toNat - 0x30) else none

def isDigit (c : Char) : Bool := (decimalDigit? c).isSome

/-- The number that digits of a base stand for; no digits stand for none. -/
def natOfDigits? (base : Nat) (value? : Char → Option Nat) (s : List Char) : Option Nat :=
  if s.isEmpty then none
  else s.foldlM (fun n c => do
    let d ← value? c
    if d < base then some (n * base + d) else none) 0

def decimal? (s : List Char) : Option Nat := natOfDigits? 10 decimalDigit? s

def splitSign (s : List Char) : Bool × List Char :=
  match s with
  | '-' :: rest => (true, rest)
  | '+' :: rest => (false, rest)
  | rest => (false, rest)

def exponent? (s : List Char) : Option Int :=
  match s with
  | [] => some 0
  | c :: rest =>
    if c = 'e' ∨ c = 'E' then
      let (negative, digits) := splitSign rest
      (decimal? digits).map fun n => if negative then -(n : Int) else n
    else none

/-- Digits with at most one point and at least one digit around it, then an exponent if any. -/
def Numeral.ofChars? (s : List Char) : Option Numeral :=
  let (negative, s) := splitSign s
  let whole := s.takeWhile isDigit
  let rest := s.dropWhile isDigit
  let (fraction, rest) := match rest with
    | '.' :: rest => (rest.takeWhile isDigit, rest.dropWhile isDigit)
    | rest => ([], rest)
  do
    let digits ← decimal? (whole ++ fraction)
    let exponent ← exponent? rest
    some ⟨negative, digits, exponent - fraction.length⟩

/-- The bits of the number nearest to a fraction, were there no largest exponent. -/
def nearestBits (num den : Nat) : Nat :=
  if num = 0 then 0
  else
    let guess : Int := (num.log2 : Int) - den.log2
    let under := num <<< (-guess).toNat < den <<< guess.toNat
    let lead := if under then guess - 1 else guess
    let unit := max (lead - 52) (-1074)
    let n := num <<< (-unit).toNat
    let d := den <<< unit.toNat
    let down := n / d
    let gap := 2 * (n % d)
    let up := d < gap ∨ (gap = d ∧ down % 2 = 1)
    ((unit + 1074).toNat <<< 52) + down + (if up then 1 else 0)

def Numeral.toBinary? (x : Numeral) : Option Binary64 :=
  let size := (toString x.digits).length + x.exponent
  let magnitude? : Option Nat :=
    if x.digits = 0 ∨ size < -400 then some 0
    else if 400 < size then none
    else
      let bits := nearestBits (x.digits * Nat.pow 10 x.exponent.toNat) (Nat.pow 10 (-x.exponent).toNat)
      if bits < 2047 <<< 52 then some bits else none
  magnitude?.map fun bits => ⟨(bits + if x.negative then 1 <<< 63 else 0).toUInt64⟩

end BusScope.Number
