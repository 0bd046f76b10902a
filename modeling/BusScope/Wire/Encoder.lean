import BusScope.DataType
import BusScope.Text.Utf16
import BusScope.Wire.Fault
import BusScope.Wire.Word

/-!
Writing values. An encoder gets a value and the number of bytes already written, and yields the
bytes to append: everything it does depends on that number only through the padding in front of
numbers. The encoder of a type is put together from the encoders of its parts.
-/

namespace BusScope

open Text

abbrev Encoder := Value → Nat → Except WireFault (List UInt8)

namespace Encoder

def word (order : ByteOrder) (width n position : Nat) : List UInt8 :=
  List.replicate (Wire.padding width position) 0 ++ order.bytes width n

def words (order : ByteOrder) (width : Nat) : List Nat → Nat → List UInt8
  | [], _ => []
  | n :: rest, position =>
    let bytes := word order width n position
    bytes ++ words order width rest (position + bytes.length)

def count (order : ByteOrder) (n position : Nat) : Except WireFault (List UInt8) :=
  if n < 0x100000000 then .ok (word order 4 n position) else .error (.data (.countRange n))

/-- One after the other, each at the position where the one before it ends. -/
def andThen (first : Except WireFault (List UInt8)) (position : Nat)
    (next : Nat → Except WireFault (List UInt8)) : Except WireFault (List UInt8) :=
  match first with
  | .error e => .error e
  | .ok bytes =>
    match next (position + bytes.length) with
    | .error e => .error e
    | .ok more => .ok (bytes ++ more)

/-- A string is counted in bytes and ends with a zero byte that counts too. -/
def string (order : ByteOrder) (max : Option Nat) (s : String) (position : Nat) :
    Except WireFault (List UInt8) :=
  let bytes := Utf8.encode s.toList
  if max.any (· < bytes.length) then .error (.data .stringBound)
  else andThen (count order (bytes.length + 1) position) position fun _ => .ok (bytes ++ [0])

def wstring (order : ByteOrder) (max : Option Nat) (s : String) (position : Nat) :
    Except WireFault (List UInt8) :=
  let units := Utf16.encode s.toList
  if max.any (· < units.length) then .error (.data .wstringBound)
  else
    andThen (count order units.length position) position fun p =>
      .ok (words order 2 (units.map (·.toNat)) p)

def scalar? (order : ByteOrder) :
    Primitive → Scalar → Nat → Option (Except WireFault (List UInt8))
  | .bool, .bool b, _ => some (.ok [if b then 1 else 0])
  | .uint8, .uint8 n, _ => some (.ok [n])
  | .int8, .int8 n, _ => some (.ok [n.toUInt8])
  | .uint16, .uint16 n, p => some (.ok (word order 2 n.toNat p))
  | .int16, .int16 n, p => some (.ok (word order 2 n.toUInt16.toNat p))
  | .uint32, .uint32 n, p => some (.ok (word order 4 n.toNat p))
  | .int32, .int32 n, p => some (.ok (word order 4 n.toUInt32.toNat p))
  | .float32, .float32 x, p => some (.ok (word order 4 x.bits.toNat p))
  | .uint64, .uint64 n, p => some (.ok (word order 8 n.toNat p))
  | .int64, .int64 n, p => some (.ok (word order 8 n.toUInt64.toNat p))
  | .float64, .float64 x, p => some (.ok (word order 8 x.bits.toNat p))
  | .char, .char c, _ =>
    some (if c.toNat < 256 then .ok [UInt8.ofNat c.toNat] else .error (.data .charRange))
  | .string max, .string s, p => some (string order max s p)
  | .wstring max, .wstring s, p => some (wstring order max s p)
  | _, _, _ => none

def primitive (order : ByteOrder) (kind : Primitive) : Encoder := fun v position =>
  match v with
  | .scalar s => (scalar? order kind s position).getD (.error (.mismatch kind.spelling v))
  | _ => .error (.mismatch kind.spelling v)

/-- An optional member starts with a byte that tells whether it is there; a null is not. -/
def field (f : Field Encoder) (member : Option Value) (position : Nat) :
    Except WireFault (List UInt8) :=
  if f.optional then
    match member with
    | none | some .null => .ok [0]
    | some v => andThen (.ok [1]) position (f.type v)
  else
    match member with
    | none => .error (.data (.missingField f.name))
    | some v => f.type v position

def fields : List (Field Encoder) → List (String × Value) → Nat → Except WireFault (List UInt8)
  | [], _, _ => .ok []
  | f :: rest, members, position =>
    andThen (field f (SortedList.find? f.name members) position) position
      (fields rest members)

def struct (fs : List (Field Encoder)) : Encoder := fun v position =>
  match v with
  | .struct members => fields fs members position
  | _ => .error (.mismatch "struct" v)

def items (element : Encoder) : List Value → Nat → Except WireFault (List UInt8)
  | [], _ => .ok []
  | v :: rest, position => andThen (element v position) position (items element rest)

def sequence (order : ByteOrder) (max : Option Nat) (element : Encoder) : Encoder :=
  fun v position =>
    match v with
    | .sequence vs =>
      if max.any (· < vs.length) then .error (.data .sequenceBound)
      else andThen (count order vs.length position) position (items element vs)
    | _ => .error (.mismatch "sequence" v)

def array (length : Nat) (element : Encoder) : Encoder := fun v position =>
  match v with
  | .array vs =>
    if vs.length = length then items element vs position
    else .error (.data (.arrayLength length vs.length))
  | _ => .error (.mismatch "array" v)

/-- An ordinal takes 32 bits, whatever the variants of the type are. -/
def enum (order : ByteOrder) : Encoder := fun v position =>
  match v with
  | .enum ordinal _ =>
    let n := ordinal.toInt
    if -0x80000000 ≤ n ∧ n < 0x80000000 then .ok (word order 4 ordinal.toInt32.toUInt32.toNat position)
    else .error (.data .enumOrdinal)
  | _ => .error (.mismatch "enum" v)

def union (switch : Int64 → Nat → Except WireFault (List UInt8)) (cases : List (Case Encoder))
    (fallback : Option (Case Encoder)) : Encoder := fun v position =>
  match v with
  | .union discriminator _ content =>
    andThen (switch discriminator position) position fun p =>
      match Case.select cases fallback discriminator with
      | some c => c.type content p
      | none => .ok []
  | _ => .error (.mismatch "union" v)

end Encoder

/-- The scalar of a primitive type that stands for an integer. A number other than zero is true,
and a character is one byte. -/
def Primitive.ofInteger (kind : Primitive) (n : Int64) : Except WireFault Scalar :=
  let i := n.toInt
  let within (low high : Int) (s : Scalar) : Except WireFault Scalar :=
    if low ≤ i ∧ i < high then .ok s else .error (.data (.discriminatorRange n))
  match kind with
  | .bool => .ok (.bool (n != 0))
  | .uint8 => within 0 0x100 (.uint8 (.ofNat i.toNat))
  | .int8 => within (-0x80) 0x80 (.int8 (.ofInt i))
  | .uint16 => within 0 0x10000 (.uint16 (.ofNat i.toNat))
  | .int16 => within (-0x8000) 0x8000 (.int16 (.ofInt i))
  | .uint32 => within 0 0x100000000 (.uint32 (.ofNat i.toNat))
  | .int32 => within (-0x80000000) 0x80000000 (.int32 (.ofInt i))
  | .uint64 => within 0 0x10000000000000000 (.uint64 (.ofNat i.toNat))
  | .int64 => .ok (.int64 n)
  | .char => within 0 0x100 (.char (.ofNat i.toNat))
  | .float32 | .float64 | .string _ | .wstring _ => .error (.switchKind kind.spelling)

namespace DataType

def switchValue (t : DataType) (n : Int64) : Except WireFault Value :=
  match t.resolved with
  | .primitive _ kind => (kind.ofInteger n).map .scalar
  | .enum _ _ => .ok (.enum n "")
  | other => .error (.switchKind other.kindName)

def encodeSwitch (t : DataType) (encode : Encoder) (n : Int64) (position : Nat) :
    Except WireFault (List UInt8) :=
  match t.switchValue n with
  | .error e => .error e
  | .ok v => encode v position

mutual

def encoder (order : ByteOrder) : DataType → Encoder
  | .primitive _ kind => Encoder.primitive order kind
  | .struct _ fields => Encoder.struct (fieldEncoders order fields)
  | .sequence _ element max => Encoder.sequence order max (encoder order element)
  | .array _ element length => Encoder.array length (encoder order element)
  | .enum _ _ => Encoder.enum order
  | .union _ discriminator cases fallback =>
    Encoder.union (discriminator.encodeSwitch (encoder order discriminator))
      (caseEncoders order cases) (fallbackEncoder order fallback)
  | .alias _ target => encoder order target
termination_by structural t => t

def fieldEncoders (order : ByteOrder) : List (Field DataType) → List (Field Encoder)
  | [] => []
  | ⟨name, type, id, key, optional⟩ :: rest =>
    ⟨name, encoder order type, id, key, optional⟩ :: fieldEncoders order rest
termination_by structural fs => fs

def caseEncoders (order : ByteOrder) : List (Case DataType) → List (Case Encoder)
  | [] => []
  | ⟨name, labels, type⟩ :: rest => ⟨name, labels, encoder order type⟩ :: caseEncoders order rest
termination_by structural cs => cs

def fallbackEncoder (order : ByteOrder) : Option (Case DataType) → Option (Case Encoder)
  | none => none
  | some ⟨name, labels, type⟩ => some ⟨name, labels, encoder order type⟩
termination_by structural c => c

end

end DataType

def encodeBody (order : ByteOrder) (t : DataType) (v : Value) : Except WireFault (List UInt8) :=
  t.encoder order v 0

/-- Four bytes that tell the byte order, and the body in little-endian order. -/
def encodeSample (t : DataType) (v : Value) : Except WireFault (List UInt8) :=
  (encodeBody .little t v).map ([0x00, 0x01, 0x00, 0x00] ++ ·)

end BusScope
