/-!
UTF-8. Reading reports where the first ill-formed sequence starts and how many of its bytes are
already wrong; a text that merely stops inside a character is reported as incomplete.
-/

namespace BusScope.Text

/-- `wrong` counts the bytes of the ill-formed sequence, and is `none` where the text ends inside
a character. -/
structure Utf8Fault where
  position : Nat
  wrong : Option Nat
deriving DecidableEq, Repr

def Utf8Fault.message (f : Utf8Fault) : String :=
  match f.wrong with
  | some n => "invalid utf-8 sequence of " ++ toString n ++ " bytes from index " ++
      toString f.position
  | none => "incomplete utf-8 byte sequence from index " ++ toString f.position

namespace Utf8

def encode (s : List Char) : List UInt8 :=
  s.flatMap String.utf8EncodeChar

def byteLength (s : List Char) : Nat :=
  s.foldr (fun c length => c.utf8Size + length) 0

def isTail (b : UInt8) : Bool := 0x80 ≤ b && b ≤ 0xBF

def secondOfThree (a b : UInt8) : Bool :=
  if a == 0xE0 then 0xA0 ≤ b && b ≤ 0xBF
  else if a == 0xED then 0x80 ≤ b && b ≤ 0x9F
  else isTail b

def secondOfFour (a b : UInt8) : Bool :=
  if a == 0xF0 then 0x90 ≤ b && b ≤ 0xBF
  else if a == 0xF4 then 0x80 ≤ b && b ≤ 0x8F
  else isTail b

/-- The character with these leading bits and these six-bit tails. -/
def assemble (lead : Nat) (tails : List UInt8) : Char :=
  Char.ofNat (tails.foldl (fun n b => n * 64 + b.toNat % 64) lead)

def decodeFrom (position : Nat) : List UInt8 → Except Utf8Fault (List Char)
  | [] => .ok []
  | a :: rest =>
    if a < 0x80 then (Char.ofNat a.toNat :: ·) <$> decodeFrom (position + 1) rest
    else if 0xC2 ≤ a ∧ a ≤ 0xDF then
      match rest with
      | [] => .error ⟨position, none⟩
      | b :: rest =>
        if isTail b then (assemble (a.toNat % 32) [b] :: ·) <$> decodeFrom (position + 2) rest
        else .error ⟨position, some 1⟩
    else if 0xE0 ≤ a ∧ a ≤ 0xEF then
      match rest with
      | [] => .error ⟨position, none⟩
      | b :: rest =>
        if secondOfThree a b then
          match rest with
          | [] => .error ⟨position, none⟩
          | c :: rest =>
            if isTail c then
              (assemble (a.toNat % 16) [b, c] :: ·) <$> decodeFrom (position + 3) rest
            else .error ⟨position, some 2⟩
        else .error ⟨position, some 1⟩
    else if 0xF0 ≤ a ∧ a ≤ 0xF4 then
      match rest with
      | [] => .error ⟨position, none⟩
      | b :: rest =>
        if secondOfFour a b then
          match rest with
          | [] => .error ⟨position, none⟩
          | c :: rest =>
            if isTail c then
              match rest with
              | [] => .error ⟨position, none⟩
              | d :: rest =>
                if isTail d then
                  (assemble (a.toNat % 8) [b, c, d] :: ·) <$> decodeFrom (position + 4) rest
                else .error ⟨position, some 3⟩
            else .error ⟨position, some 2⟩
        else .error ⟨position, some 1⟩
    else .error ⟨position, some 1⟩

def decode (bytes : List UInt8) : Except Utf8Fault (List Char) := decodeFrom 0 bytes

end Utf8

end BusScope.Text
