import BusScope.Json

/-!
Source timestamps: seconds and nanoseconds since the epoch, ordered by seconds first. The
nanoseconds come from the network and may exceed a second. Elapsed time is counted in nanoseconds
and is zero when the other timestamp is later, or when the count does not fit 64 bits.
-/

namespace BusScope

structure Timestamp where
  seconds : Int64
  nanoseconds : UInt32
deriving DecidableEq, Repr, Inhabited

namespace Timestamp

def zero : Timestamp := ⟨0, 0⟩

instance : Ord Timestamp :=
  ⟨compareLex (compareOn (·.seconds)) (compareOn (·.nanoseconds))⟩

def totalNanoseconds (t : Timestamp) : Int := t.seconds.toInt * 1000000000 + t.nanoseconds.toNat

def since (t earlier : Timestamp) : Nat :=
  let delta := t.totalNanoseconds - earlier.totalNanoseconds
  if 0 ≤ delta ∧ delta < 0x10000000000000000 then delta.toNat else 0

/-- The timestamp that many nanoseconds after the epoch, at most the last second there is. -/
def ofElapsed (nanoseconds : Nat) : Timestamp :=
  ⟨Int64.ofNat (min (nanoseconds / 1000000000) 0x7FFFFFFFFFFFFFFF),
    (nanoseconds % 1000000000).toUInt32⟩

def secondsFloat (t : Timestamp) : Float :=
  t.seconds.toFloat + t.nanoseconds.toFloat / 1e9

/-- A decimal number, zeros in front up to the width. -/
def padLeft (width n : Nat) : String :=
  let digits := toString n
  Number.zeros (width - digits.length) ++ digits

def text (t : Timestamp) : String :=
  toString t.seconds.toInt ++ "." ++ padLeft 9 t.nanoseconds.toNat

def toJson (t : Timestamp) : Json :=
  .object [("seconds", .int t.seconds.toInt), ("nanoseconds", .nat t.nanoseconds.toNat)]

end Timestamp

end BusScope
