import BusScope.Number.Binary

/-!
The shortest decimal that reads back as a given binary number. A number owns the interval of
reals that round to it, ends included exactly when its significand is even. On each decimal grid,
coarsest first, the two neighbours of the number are tried; the first grid with a neighbour inside
the interval decides how many digits are written, and the nearer neighbour decides which.
-/

namespace BusScope.Number

inductive Tie where
  | up
  | even
deriving DecidableEq, Repr

/-- `digits · 10 ^ exponent`. -/
structure Decimal where
  digits : Nat
  exponent : Int
deriving DecidableEq, Repr

/-- `n · 2 ^ e2 / 10 ^ e10` as a fraction. -/
def scaled (n : Nat) (e2 e10 : Int) : Nat × Nat :=
  ((n <<< e2.toNat) * Nat.pow 10 (-e10).toNat, Nat.pow 10 e10.toNat <<< (-e2).toNat)

def Finite.leading (x : Finite) : Int :=
  let guess := ((x.significand.log2 : Int) + x.exponent) * 30103 / 100000
  let (num, den) := scaled x.significand x.exponent (guess + 1)
  if den ≤ num then guess + 1
  else
    let (num, den) := scaled x.significand x.exponent guess
    if num < den then guess - 1 else guess

def Finite.onGrid? (tie : Tie) (x : Finite) (grid : Int) : Option Nat :=
  let quarter := x.exponent - 2
  let (mid, den) := scaled (4 * x.significand) quarter grid
  let (low, _) := scaled (4 * x.significand - if x.atEdge then 1 else 2) quarter grid
  let (high, _) := scaled (4 * x.significand + 2) quarter grid
  let closed := x.significand % 2 = 0
  let below := mid / den
  let above := below + 1
  let belowFits := if closed then low ≤ below * den else low < below * den
  let aboveFits := if closed then above * den ≤ high else above * den < high
  let gap := 2 * (mid % den)
  let roundsUp := den < gap || (gap == den && (tie == .up || below % 2 == 1))
  if belowFits ∧ aboveFits then some (if roundsUp then above else below)
  else if belowFits then some below
  else if aboveFits then some above
  else none

def Decimal.strip : Nat → Decimal → Decimal
  | 0, d => d
  | fuel + 1, d =>
    if d.digits ≠ 0 ∧ d.digits % 10 = 0 then strip fuel ⟨d.digits / 10, d.exponent + 1⟩ else d

def Finite.shortest (tie : Tie) (x : Finite) : Decimal :=
  if x.significand = 0 then ⟨0, 0⟩
  else
    let lead := x.leading
    -- Seventeen digits suffice for the long format, so there is always a hit.
    let hit := (List.range 17).findSome? fun (k : Nat) =>
      (x.onGrid? tie (lead - k)).map fun n => Decimal.mk n (lead - k)
    (hit.getD ⟨x.significand, 0⟩).strip 20

end BusScope.Number
