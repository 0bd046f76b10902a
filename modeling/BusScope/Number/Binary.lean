/-!
Floating-point numbers as their interchange bits, in the formats of 32 and 64 bits. Values are
kept as bits, so a payload of a not-a-number survives; the numeric comparison is a function of
the bits, and so is the widening of the short format to the long one.
-/

namespace BusScope.Number

structure Format where
  exponentBits : Nat
  fractionBits : Nat

namespace Format

def single : Format := ⟨8, 23⟩

def double : Format := ⟨11, 52⟩

def bias (f : Format) : Nat := (1 <<< (f.exponentBits - 1)) - 1

end Format

/-- A finite number is `significand · 2 ^ exponent`. `atEdge` tells that the numbers below it are
spaced twice as closely as those above. -/
structure Finite where
  negative : Bool
  significand : Nat
  exponent : Int
  atEdge : Bool
deriving DecidableEq, Repr

inductive Unpacked where
  | nan
  | infinite (negative : Bool)
  | finite (x : Finite)
deriving DecidableEq, Repr

def Format.unpack (f : Format) (bits : Nat) : Unpacked :=
  let fraction := bits % (1 <<< f.fractionBits)
  let exponent := (bits >>> f.fractionBits) % (1 <<< f.exponentBits)
  let negative := (bits >>> (f.fractionBits + f.exponentBits)) % 2 == 1
  let low : Int := 1 - f.bias - f.fractionBits
  if exponent = (1 <<< f.exponentBits) - 1 then
    if fraction = 0 then .infinite negative else .nan
  else if exponent = 0 then .finite ⟨negative, fraction, low, false⟩
  else .finite ⟨negative, (1 <<< f.fractionBits) + fraction, low + exponent - 1,
    fraction == 0 && exponent != 1⟩

structure Binary32 where
  bits : UInt32
deriving DecidableEq, Repr

structure Binary64 where
  bits : UInt64
deriving DecidableEq, Repr

namespace Binary32

def unpack (x : Binary32) : Unpacked := Format.single.unpack x.bits.toNat

/-- Equal as numbers: the zeros are equal, and a not-a-number equals nothing. -/
def numEq (x y : Binary32) : Bool :=
  match x.unpack, y.unpack with
  | .nan, _ => false
  | .finite a, .finite b => x == y || (a.significand == 0 && b.significand == 0)
  | _, _ => x == y

/-- The same number in the long format. A not-a-number keeps its sign and payload and turns
quiet. -/
def widen (x : Binary32) : Binary64 :=
  let bits := x.bits.toNat
  let sign := (bits >>> 31) <<< 63
  let exponent := (bits >>> 23) % 0x100
  let fraction := bits % 0x800000
  let wide :=
    if exponent = 255 then
      if fraction = 0 then 2047 <<< 52
      else (2047 <<< 52) + (1 <<< 51) + ((fraction % 0x400000) <<< 29)
    else if exponent = 0 then
      if fraction = 0 then 0
      else
        let top := fraction.log2
        ((top + 874) <<< 52) + ((fraction - (1 <<< top)) <<< (52 - top))
    else ((exponent + 896) <<< 52) + (fraction <<< 29)
  ⟨(sign + wide).toUInt64⟩

end Binary32

namespace Binary64

def zero : Binary64 := ⟨0⟩

def ofFloat (x : Float) : Binary64 := ⟨x.toBits⟩

def toFloat (x : Binary64) : Float := Float.ofBits x.bits

def unpack (x : Binary64) : Unpacked := Format.double.unpack x.bits.toNat

/-- Equal as numbers: the zeros are equal, and a not-a-number equals nothing. -/
def numEq (x y : Binary64) : Bool :=
  match x.unpack, y.unpack with
  | .nan, _ => false
  | .finite a, .finite b => x == y || (a.significand == 0 && b.significand == 0)
  | _, _ => x == y

/-- Less than zero; negative zero is not. -/
def isBelowZero (x : Binary64) : Bool :=
  match x.unpack with
  | .nan => false
  | .infinite negative => negative
  | .finite a => a.negative && a.significand != 0

end Binary64

end BusScope.Number
