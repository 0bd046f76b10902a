import BusScope.DataType
import BusScope.Json
import BusScope.Value

/-!
Values as JSON. With the type at hand the members of a structure appear in declaration order, a
member without a value as null, and a union as an object with its case or as null; without it
members appear in order of their names. A float that is not finite has no JSON number and is
written as text.
-/

namespace BusScope

open Number

namespace Json

def ofFloat (x : Binary64) : Json :=
  match x.unpack with
  | .finite _ => .float x
  | other => .text (Layout.plain.write other)

end Json

def Scalar.toJson : Scalar → Json
  | .bool b => .bool b
  | .uint8 n => .nat n.toNat
  | .uint16 n => .nat n.toNat
  | .uint32 n => .nat n.toNat
  | .uint64 n => .nat n.toNat
  | .int8 n => .int n.toInt
  | .int16 n => .int n.toInt
  | .int32 n => .int n.toInt
  | .int64 n => .int n.toInt
  | .float32 x => .ofFloat x.widen
  | .float64 x => .ofFloat x
  | .char c => .text (String.ofList [c])
  | .string s | .wstring s => .text s

namespace Value

mutual

/-- The rendering that no type guides. An enumeration value shows its name, if it has one. -/
def toJson : Value → Json
  | .scalar s => s.toJson
  | .struct members => .ofMembers (toJsonMembers members)
  | .sequence items | .array items => .list (toJsonItems items)
  | .enum ordinal name => if name.isEmpty then .int ordinal.toInt else .text name
  | .union _ caseName content => .object [(caseName, toJson content)]
  | .null => .null
termination_by structural v => v

def toJsonItems : List Value → List Json
  | [] => []
  | v :: rest => toJson v :: toJsonItems rest
termination_by structural vs => vs

def toJsonMembers : List (String × Value) → List (String × Json)
  | [] => []
  | (name, v) :: rest => (name, toJson v) :: toJsonMembers rest
termination_by structural ms => ms

end

end Value

abbrev Renderer := Value → Json

namespace Renderer

def struct (fields : List (Field Renderer)) : Renderer
  | .struct members => .ofMembers (fields.map fun f =>
      (f.name, ((SortedList.find? f.name members).map f.type).getD .null))
  | v => v.toJson

def sequence (element : Renderer) : Renderer
  | .sequence items => .list (items.map element)
  | v => v.toJson

def array (element : Renderer) : Renderer
  | .array items => .list (items.map element)
  | v => v.toJson

def union (cases : List (Case Renderer)) (fallback : Option (Case Renderer)) : Renderer
  | .union discriminator caseName content =>
    match Case.select cases fallback discriminator with
    | some c => .object [(caseName, c.type content)]
    | none => .null
  | v => v.toJson

end Renderer

namespace DataType

mutual

def renderer : DataType → Renderer
  | .primitive _ _ => Value.toJson
  | .struct _ fields => Renderer.struct (fieldRenderers fields)
  | .sequence _ element _ => Renderer.sequence (renderer element)
  | .array _ element _ => Renderer.array (renderer element)
  | .enum _ _ => Value.toJson
  | .union _ _ cases fallback => Renderer.union (caseRenderers cases) (fallbackRenderer fallback)
  | .alias _ target => renderer target
termination_by structural t => t

def fieldRenderers : List (Field DataType) → List (Field Renderer)
  | [] => []
  | ⟨name, type, id, key, optional⟩ :: rest =>
    ⟨name, renderer type, id, key, optional⟩ :: fieldRenderers rest
termination_by structural fs => fs

def caseRenderers : List (Case DataType) → List (Case Renderer)
  | [] => []
  | ⟨name, labels, type⟩ :: rest => ⟨name, labels, renderer type⟩ :: caseRenderers rest
termination_by structural cs => cs

def fallbackRenderer : Option (Case DataType) → Option (Case Renderer)
  | none => none
  | some ⟨name, labels, type⟩ => some ⟨name, labels, renderer type⟩
termination_by structural c => c

end

end DataType

end BusScope
