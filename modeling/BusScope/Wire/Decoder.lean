import BusScope.DataType
import BusScope.Text.Utf16
import BusScope.Wire.Fault
import BusScope.Wire.Word

/-!
Reading values. A reader moves a cursor over the bytes of a body; the cursor may be moved past the
end by alignment, and every attempt to read beyond the end is refused before anything is taken. A
count is refused when fewer bytes than that are left, so a claimed length never exceeds the body.
-/

namespace BusScope

open Text

/-- A place in a body: how long the body is, how many bytes lie before the place, and the bytes
from there on. -/
structure Cursor where
  size : Nat
  offset : Nat
  rest : List UInt8

def Cursor.start (body : List UInt8) : Cursor := ⟨body.length, 0, body⟩

abbrev Reader (α : Type) := StateT Cursor (Except WireFault) α

abbrev Decoder := Reader Value

namespace Reader

def fail {α : Type} (fault : WireFault) : Reader α := fun _ => .error fault

def align (alignment : Nat) : Reader Unit := fun c =>
  let skip := Wire.padding alignment c.offset
  .ok ((), ⟨c.size, c.offset + skip, c.rest.drop skip⟩)

def take (n : Nat) : Reader (List UInt8) := fun c =>
  if c.offset + n ≤ c.size then
    .ok (c.rest.take n, ⟨c.size, c.offset + n, c.rest.drop n⟩)
  else .error (.tooShort (c.offset + n) c.size)

def byte : Reader UInt8 := do
  let bytes ← take 1
  return bytes.headD 0

def word (order : ByteOrder) (width : Nat) : Reader Nat := do
  align width
  let bytes ← take width
  return order.value bytes

/-- Accepts a count only if at least that many bytes are left. -/
def atLeast (n : Nat) : Reader Unit := fun c =>
  if n ≤ c.size - c.offset then .ok ((), c) else .error (.tooShort (c.offset + n) c.size)

def count (order : ByteOrder) : Reader Nat := do
  let n ← word order 4
  atLeast n
  return n

def times {α : Type} (r : Reader α) : Nat → Reader (List α)
  | 0 => pure []
  | n + 1 => do
    let first ← r
    let rest ← times r n
    return first :: rest

def dropTerminator (bytes : List UInt8) : List UInt8 :=
  if bytes.getLast? = some 0 then bytes.dropLast else bytes

/-- The count of the longest string within a bound. The byte for the terminator is added in a word
of 64 bits. -/
def longest (max : Nat) : Nat := (max + 1) % 0x10000000000000000

def string (order : ByteOrder) (max : Option Nat) : Reader String := do
  let n ← count order
  if max.any (longest · < n) then fail (.data .stringBound)
  else
    let bytes ← take n
    match Utf8.decode (dropTerminator bytes) with
    | .ok s => return String.ofList s
    | .error fault => fail (.utf8 fault)

def wstring (order : ByteOrder) (max : Option Nat) : Reader String := do
  let n ← count order
  if max.any (· < n) then fail (.data .wstringBound)
  else
    let units ← times (word order 2) n
    match Utf16.decode (units.map (·.toUInt16)) with
    | some s => return String.ofList s
    | none => fail (.data .utf16)

def scalar (order : ByteOrder) : Primitive → Reader Scalar
  | .bool => return .bool ((← byte) != 0)
  | .uint8 => return .uint8 (← byte)
  | .int8 => return .int8 (← byte).toInt8
  | .uint16 => return .uint16 (← word order 2).toUInt16
  | .int16 => return .int16 (← word order 2).toUInt16.toInt16
  | .uint32 => return .uint32 (← word order 4).toUInt32
  | .int32 => return .int32 (← word order 4).toUInt32.toInt32
  | .float32 => return .float32 ⟨(← word order 4).toUInt32⟩
  | .uint64 => return .uint64 (← word order 8).toUInt64
  | .int64 => return .int64 (← word order 8).toUInt64.toInt64
  | .float64 => return .float64 ⟨(← word order 8).toUInt64⟩
  | .char => return .char (Char.ofNat (← byte).toNat)
  | .string max => return .string (← string order max)
  | .wstring max => return .wstring (← wstring order max)

def field (f : Field Decoder) : Decoder := do
  if f.optional then
    if (← byte) = 0 then return .null
    f.type
  else f.type

def fields : List (Field Decoder) → Reader (List (String × Value))
  | [] => pure []
  | f :: rest => do
    let v ← field f
    let others ← fields rest
    return (f.name, v) :: others

def struct (fs : List (Field Decoder)) : Decoder := do
  let members ← fields fs
  return .ofMembers members

def sequence (order : ByteOrder) (max : Option Nat) (element : Decoder) : Decoder := do
  let n ← count order
  if max.any (· < n) then fail (.data .sequenceBound)
  else
    let items ← times element n
    return .sequence items

def array (length : Nat) (element : Decoder) : Decoder := do
  let items ← times element length
  return .array items

def enum (order : ByteOrder) (variants : List Variant) : Decoder := do
  let n ← word order 4
  let ordinal := n.toUInt32.toInt32.toInt64
  return .enum ordinal (Variant.nameOf variants ordinal)

/-- Without a case for the discriminator there is nothing more to read. -/
def union (switch : Decoder) (cases : List (Case Decoder)) (fallback : Option (Case Decoder)) :
    Decoder := do
  let v ← switch
  match v.integer? with
  | none => fail (.data .discriminatorKind)
  | some discriminator =>
    match Case.select cases fallback discriminator with
    | none => return .union discriminator "" .null
    | some c =>
      let content ← c.type
      return .union discriminator c.name content

section Runs

variable {α β : Type} {c c' : Cursor}

theorem bind_of_ok {r : Reader α} {k : α → Reader β} {a : α} (h : r c = .ok (a, c')) :
    (r >>= k) c = k a c' := by
  show (r c >>= fun p => k p.1 p.2) = _
  rw [h]
  rfl

theorem bind_of_error {r : Reader α} {k : α → Reader β} {fault : WireFault}
    (h : r c = .error fault) : (r >>= k) c = .error fault := by
  show (r c >>= fun p => k p.1 p.2) = _
  rw [h]
  rfl

theorem take_eq_ok {n : Nat} {bytes : List UInt8} (h : take n c = .ok (bytes, c')) :
    c.offset + n ≤ c.size ∧ bytes = c.rest.take n ∧ c' = ⟨c.size, c.offset + n, c.rest.drop n⟩ := by
  unfold take at h
  split at h
  · next hle =>
    cases h
    exact ⟨hle, rfl, rfl⟩
  · cases h

theorem take_eq_error {n : Nat} {fault : WireFault} (h : take n c = .error fault) :
    c.size < c.offset + n ∧ fault = .tooShort (c.offset + n) c.size := by
  unfold take at h
  split at h
  · cases h
  · next hlt =>
    cases h
    exact ⟨Nat.lt_of_not_le hlt, rfl⟩

theorem atLeast_eq_ok {n : Nat} {u : Unit} (h : atLeast n c = .ok (u, c')) :
    n ≤ c.size - c.offset ∧ c' = c := by
  unfold atLeast at h
  split at h
  · next hle =>
    cases h
    exact ⟨hle, rfl⟩
  · cases h

theorem atLeast_eq_error {n : Nat} {fault : WireFault} (h : atLeast n c = .error fault) :
    c.size < c.offset + n ∧ fault = .tooShort (c.offset + n) c.size := by
  unfold atLeast at h
  split at h
  · cases h
  · next hlt =>
    cases h
    exact ⟨by omega, rfl⟩

end Runs

end Reader

namespace DataType

mutual

def decoder (order : ByteOrder) : DataType → Decoder
  | .primitive _ kind => Value.scalar <$> Reader.scalar order kind
  | .struct _ fields => Reader.struct (fieldDecoders order fields)
  | .sequence _ element max => Reader.sequence order max (decoder order element)
  | .array _ element length => Reader.array length (decoder order element)
  | .enum _ variants => Reader.enum order variants
  | .union _ discriminator cases fallback =>
    Reader.union (decoder order discriminator) (caseDecoders order cases)
      (fallbackDecoder order fallback)
  | .alias _ target => decoder order target
termination_by structural t => t

def fieldDecoders (order : ByteOrder) : List (Field DataType) → List (Field Decoder)
  | [] => []
  | ⟨name, type, id, key, optional⟩ :: rest =>
    ⟨name, decoder order type, id, key, optional⟩ :: fieldDecoders order rest
termination_by structural fs => fs

def caseDecoders (order : ByteOrder) : List (Case DataType) → List (Case Decoder)
  | [] => []
  | ⟨name, labels, type⟩ :: rest => ⟨name, labels, decoder order type⟩ :: caseDecoders order rest
termination_by structural cs => cs

def fallbackDecoder (order : ByteOrder) : Option (Case DataType) → Option (Case Decoder)
  | none => none
  | some ⟨name, labels, type⟩ => some ⟨name, labels, decoder order type⟩
termination_by structural c => c

end

end DataType

/-- The value at the start of a body. What follows it is not looked at. -/
def decodeBody (order : ByteOrder) (t : DataType) (body : List UInt8) :
    Except WireFault Value :=
  ((t.decoder order).run (.start body)).map (·.1)

theorem decodeBody_eq_ok {order : ByteOrder} {t : DataType} {body : List UInt8} {v : Value}
    (h : decodeBody order t body = .ok v) : ∃ c, t.decoder order (.start body) = .ok (v, c) := by
  unfold decodeBody at h
  cases hr : (t.decoder order).run (.start body) with
  | error fault => rw [hr] at h; cases h
  | ok p =>
    rw [hr] at h
    cases h
    exact ⟨p.2, hr⟩

theorem decodeBody_eq_error {order : ByteOrder} {t : DataType} {body : List UInt8}
    {fault : WireFault} (h : decodeBody order t body = .error fault) :
    t.decoder order (.start body) = .error fault := by
  unfold decodeBody at h
  cases hr : (t.decoder order).run (.start body) with
  | error e =>
    rw [hr] at h
    cases h
    exact hr
  | ok p => rw [hr] at h; cases h

/-- Of the four bytes in front of the body the first two tell the byte order. -/
def decodeSample (t : DataType) : List UInt8 → Except WireFault Value
  | 0x00 :: 0x01 :: _ :: _ :: body => decodeBody .little t body
  | 0x00 :: 0x00 :: _ :: _ :: body => decodeBody .big t body
  | first :: second :: _ :: _ :: _ => .error (.header first second)
  | short => .error (.tooShort 4 short.length)

end BusScope
