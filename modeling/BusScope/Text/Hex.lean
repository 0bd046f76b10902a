/-!
Hexadecimal digits: lower-case digits of a byte with or without padding, and the value of a digit
in either case.
-/

namespace BusScope.Text.Hex

def digit (n : Nat) : Char :=
  if n < 10 then Char.ofNat (0x30 + n) else Char.ofNat (0x57 + n)

def upperDigit (n : Nat) : Char :=
  if n < 10 then Char.ofNat (0x30 + n) else Char.ofNat (0x37 + n)

def padded (b : UInt8) : List Char := [digit (b.toNat / 16), digit (b.toNat % 16)]

def plain (b : UInt8) : List Char :=
  if b.toNat < 16 then [digit b.toNat] else padded b

def ofBytes (bytes : List UInt8) : List Char := bytes.flatMap padded

/-- The lowest `width` digits of a number, most significant first. -/
def fixed (digitOf : Nat → Char) (width n : Nat) : List Char :=
  (List.range width).reverse.map fun k => digitOf ((n >>> (4 * k)) % 16)

def ofNat (n : Nat) : List Char :=
  fixed digit (if n = 0 then 1 else Nat.log2 n / 4 + 1) n

def value? (c : Char) : Option Nat :=
  let n := c.toNat
  if 0x30 ≤ n ∧ n ≤ 0x39 then some (n - 0x30)
  else if 0x61 ≤ n ∧ n ≤ 0x66 then some (n - 0x57)
  else if 0x41 ≤ n ∧ n ≤ 0x46 then some (n - 0x37)
  else none

end BusScope.Text.Hex
