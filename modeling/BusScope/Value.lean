import BusScope.Number.Binary
import BusScope.SortedMap

/-!
Values of any data type. The members of a structure are kept in order of their names, each name
once, so that equal structures are equal lists.
-/

namespace BusScope

open Number

inductive Scalar where
  | bool (b : Bool)
  | uint8 (n : UInt8)
  | uint16 (n : UInt16)
  | uint32 (n : UInt32)
  | uint64 (n : UInt64)
  | int8 (n : Int8)
  | int16 (n : Int16)
  | int32 (n : Int32)
  | int64 (n : Int64)
  | float32 (x : Binary32)
  | float64 (x : Binary64)
  | char (c : Char)
  | string (s : String)
  | wstring (s : String)
deriving DecidableEq

/-- `null` stands for an optional member that is absent. -/
inductive Value where
  | scalar (s : Scalar)
  | struct (members : List (String × Value))
  | sequence (items : List Value)
  | array (items : List Value)
  | enum (ordinal : Int64) (name : String)
  | union (discriminator : Int64) (caseName : String) (content : Value)
  | null

instance : Inhabited Value := ⟨.null⟩

/-- Equality of numbers for floats and equality of what is written for all else. -/
def Scalar.same : Scalar → Scalar → Bool
  | .float32 x, .float32 y => x.numEq y
  | .float64 x, .float64 y => x.numEq y
  | a, b => a == b

/-- The number behind an integral scalar, if 64 signed bits hold it. -/
def Scalar.integer? : Scalar → Option Int64
  | .bool b => some (if b then 1 else 0)
  | .uint8 n => some (.ofNat n.toNat)
  | .uint16 n => some (.ofNat n.toNat)
  | .uint32 n => some (.ofNat n.toNat)
  | .uint64 n => if n.toNat < 0x8000000000000000 then some (.ofNat n.toNat) else none
  | .int8 n => some (.ofInt n.toInt)
  | .int16 n => some (.ofInt n.toInt)
  | .int32 n => some (.ofInt n.toInt)
  | .int64 n => some n
  | .char c => some (.ofNat c.toNat)
  | .float32 _ | .float64 _ | .string _ | .wstring _ => none

namespace Value

/-- The structure with these members; of two with the same name the later one stays. -/
def ofMembers (members : List (String × Value)) : Value :=
  .struct (SortedList.ofList members)

def isNull : Value → Bool
  | .null => true
  | _ => false

def member? (v : Value) (name : String) : Option Value :=
  match v with
  | .struct members => SortedList.find? name members
  | _ => none

def text? : Value → Option String
  | .scalar (.string s) | .scalar (.wstring s) => some s
  | _ => none

def integer? : Value → Option Int64
  | .scalar s => s.integer?
  | .enum ordinal _ => some ordinal
  | _ => none

def float? : Value → Option Binary64
  | .scalar (.float32 x) => some x.widen
  | .scalar (.float64 x) => some x
  | _ => none

def elements? : Value → Option (List Value)
  | .sequence items | .array items => some items
  | _ => none

mutual

def same : Value → Value → Bool
  | .scalar a, .scalar b => a.same b
  | .struct ms, .struct ns => sameMembers ms ns
  | .sequence xs, .sequence ys => sameItems xs ys
  | .array xs, .array ys => sameItems xs ys
  | .enum m a, .enum n b => m == n && a == b
  | .union m a x, .union n b y => m == n && a == b && same x y
  | .null, .null => true
  | _, _ => false
termination_by structural v => v

def sameItems : List Value → List Value → Bool
  | [], [] => true
  | x :: xs, y :: ys => same x y && sameItems xs ys
  | _, _ => false
termination_by structural xs => xs

def sameMembers : List (String × Value) → List (String × Value) → Bool
  | [], [] => true
  | (m, x) :: xs, (n, y) :: ys => m == n && same x y && sameMembers xs ys
  | _, _ => false
termination_by structural xs => xs

end

end Value

end BusScope
