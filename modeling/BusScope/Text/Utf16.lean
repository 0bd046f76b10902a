/-!
UTF-16 code units. A character outside the basic plane takes two units, a high and a low
surrogate; reading refuses a surrogate without its partner.
-/

namespace BusScope.Text.Utf16

def encodeChar (c : Char) : List UInt16 :=
  let n := c.toNat
  if n < 0x10000 then [n.toUInt16]
  else [(0xD800 + (n - 0x10000) / 0x400).toUInt16, (0xDC00 + (n - 0x10000) % 0x400).toUInt16]

def encode (s : List Char) : List UInt16 :=
  s.flatMap encodeChar

def isHigh (u : UInt16) : Bool := 0xD800 ≤ u && u < 0xDC00

def isLow (u : UInt16) : Bool := 0xDC00 ≤ u && u < 0xE000

def decode : List UInt16 → Option (List Char)
  | [] => some []
  | u :: rest =>
    if isHigh u then
      match rest with
      | [] => none
      | v :: rest =>
        if isLow v then
          let n := 0x10000 + (u.toNat - 0xD800) * 0x400 + (v.toNat - 0xDC00)
          (Char.ofNat n :: ·) <$> decode rest
        else none
    else if isLow u then none
    else (Char.ofNat u.toNat :: ·) <$> decode rest

end BusScope.Text.Utf16
