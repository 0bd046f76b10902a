/-!
Types of the data on a topic, as remote participants describe them. An alias stands for its target
wherever a type is used; what a type is called plays no part in how its values are written.
-/

namespace BusScope

inductive Primitive where
  | bool
  | uint8
  | uint16
  | uint32
  | uint64
  | int8
  | int16
  | int32
  | int64
  | float32
  | float64
  | char
  | string (max : Option Nat)
  | wstring (max : Option Nat)
deriving DecidableEq, Repr

def Primitive.spelling : Primitive → String
  | .bool => "boolean"
  | .uint8 => "octet"
  | .uint16 => "unsigned short"
  | .uint32 => "unsigned long"
  | .uint64 => "unsigned long long"
  | .int8 => "int8"
  | .int16 => "short"
  | .int32 => "long"
  | .int64 => "long long"
  | .float32 => "float"
  | .float64 => "double"
  | .char => "char"
  | .string _ => "string"
  | .wstring _ => "wstring"

/-- A member of a structure. `τ` is what the member carries: its type, or what is derived from
it. -/
structure Field (τ : Type) where
  name : String
  type : τ
  id : Option UInt32
  key : Bool
  optional : Bool

namespace Field

variable {τ σ : Type}

def of (name : String) (type : τ) : Field τ := ⟨name, type, none, false, false⟩

def asKey (f : Field τ) : Field τ := { f with key := true }

def asOptional (f : Field τ) : Field τ := { f with optional := true }

def map (g : τ → σ) (f : Field τ) : Field σ := ⟨f.name, g f.type, f.id, f.key, f.optional⟩

end Field

structure Variant where
  name : String
  value : Int64
deriving DecidableEq, Repr

/-- A case of a union, chosen by any of its labels. -/
structure Case (τ : Type) where
  name : String
  labels : List Int64
  type : τ

namespace Case

variable {τ σ : Type}

def map (g : τ → σ) (c : Case τ) : Case σ := ⟨c.name, c.labels, g c.type⟩

def select (cases : List (Case τ)) (fallback : Option (Case τ)) (label : Int64) :
    Option (Case τ) :=
  (cases.find? fun c => c.labels.contains label).or fallback

end Case

namespace Variant

def byName? (variants : List Variant) (name : String) : Option Variant :=
  variants.find? (·.name == name)

def byValue? (variants : List Variant) (value : Int64) : Option Variant :=
  variants.find? (·.value == value)

/-- The name of the first variant with the value, empty when there is none. -/
def nameOf (variants : List Variant) (value : Int64) : String :=
  ((byValue? variants value).map (·.name)).getD ""

end Variant

inductive DataType where
  | primitive (name : String) (kind : Primitive)
  | struct (name : String) (fields : List (Field DataType))
  | sequence (name : String) (element : DataType) (max : Option Nat)
  | array (name : String) (element : DataType) (length : Nat)
  | enum (name : String) (variants : List Variant)
  | union (name : String) (discriminator : DataType) (cases : List (Case DataType))
      (fallback : Option (Case DataType))
  | alias (name : String) (target : DataType)

instance : Inhabited DataType := ⟨.struct "" []⟩

namespace DataType

def name : DataType → String
  | .primitive n _ | .struct n _ | .sequence n _ _ | .array n _ _ | .enum n _ | .union n _ _ _
  | .alias n _ => n

def kindName : DataType → String
  | .primitive _ p => p.spelling
  | .struct .. => "struct"
  | .sequence .. => "sequence"
  | .array .. => "array"
  | .enum .. => "enum"
  | .union .. => "union"
  | .alias .. => "nested"

def resolved : DataType → DataType
  | .alias _ target => target.resolved
  | t => t

def fields? (t : DataType) : Option (List (Field DataType)) :=
  match t.resolved with
  | .struct _ fields => some fields
  | _ => none

def isStruct (t : DataType) : Bool := t.fields?.isSome

def field? (t : DataType) (name : String) : Option (Field DataType) :=
  t.fields?.bind fun fields => fields.find? (·.name == name)

/-- The key members in declaration order; none unless the type is a structure. -/
def keyFields (t : DataType) : List (Field DataType) :=
  (t.fields?.getD []).filter (·.key)

def keyNames (t : DataType) : List String := t.keyFields.map (·.name)

def isKeyed (t : DataType) : Bool := (t.fields?.getD []).any (·.key)

theorem keyFields_eq_nil_iff {t : DataType} : t.keyFields = [] ↔ t.isKeyed = false := by
  rw [keyFields, isKeyed, List.filter_eq_nil_iff, List.any_eq_false]

def keyOnly? (t : DataType) : Option DataType :=
  if t.keyFields.isEmpty then none else some (.struct (t.name ++ "_KeysOnly") t.keyFields)

def ofPrimitive (p : Primitive) : DataType := .primitive "" p

end DataType

namespace Field

def ofPrimitive (name : String) (p : Primitive) : Field DataType := of name (.ofPrimitive p)

def sequenceOf (name : String) (p : Primitive) : Field DataType :=
  of name (.sequence "" (.ofPrimitive p) none)

def arrayOf (name : String) (p : Primitive) (length : Nat) : Field DataType :=
  of name (.array "" (.ofPrimitive p) length)

def enumOf (name typeName : String) (variants : List Variant) : Field DataType :=
  of name (.enum typeName variants)

/-- A member that refers to a type by its name. -/
def nested (name : String) (type : DataType) : Field DataType :=
  of name (.alias type.name type)

end Field

end BusScope
