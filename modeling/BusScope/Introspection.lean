import BusScope.Guid
import BusScope.InstanceHandle
import BusScope.Timestamp
import BusScope.Value.Rendering
import BusScope.Wire.Decoder
import BusScope.Wire.Encoder

/-!
Looking inside samples: the record of the key members, the handle of the instance they name, and
JSON of the keys or of the whole sample. The handle is made from the key record in big-endian
order without a header, so it does not depend on how the sample was sent.
-/

namespace BusScope

/-- A sample as it came from the network, header included. -/
structure Sample where
  payload : List UInt8
  writer : Guid
  handle : InstanceHandle
  timestamp : Timestamp

inductive InspectionFault where
  | decode (fault : WireFault)
  | encode (fault : WireFault)
  | notAStruct (type : String)
  | noKeyMembers (type : String)
  | missingKey (type member : String)

namespace InspectionFault

def message : InspectionFault → String
  | .decode fault => "Failed to deserialize sample: " ++ fault.message
  | .encode fault => "Failed to serialize key holder: " ++ fault.message
  | .notAStruct type => "Type " ++ type ++ " is not a structure"
  | .noKeyMembers type => "Type " ++ type ++ " has no key members"
  | .missingKey type member => "Sample of " ++ type ++ " has no value for key " ++ member

def source? : InspectionFault → Option WireFault
  | .decode fault | .encode fault => some fault
  | _ => none

end InspectionFault

def keyMembers (typeName : String) (v : Value) :
    List (Field DataType) → Except InspectionFault (List (String × Value))
  | [] => .ok []
  | f :: rest =>
    match v.member? f.name with
    | none | some .null => .error (.missingKey typeName f.name)
    | some member =>
      match keyMembers typeName v rest with
      | .error e => .error e
      | .ok others => .ok ((f.name, member) :: others)

def keyRecord (t : DataType) (v : Value) : Except InspectionFault (DataType × Value) :=
  if t.isStruct then
    match t.keyOnly? with
    | none => .error (.noKeyMembers t.name)
    | some keys => (keyMembers t.name v t.keyFields).map fun ms => (keys, .ofMembers ms)
  else .error (.notAStruct t.name)

/-- All samples of a type without keys belong to the nil instance. -/
def handleOf (t : DataType) (v : Value) : Except InspectionFault InstanceHandle :=
  if t.isKeyed then
    match keyRecord t v with
    | .error e => .error e
    | .ok (keys, values) =>
      match encodeBody .big keys values with
      | .error fault => .error (.encode fault)
      | .ok holder => .ok (.ofKeyHolder holder)
  else .ok .nil

namespace Sample

def value (s : Sample) (t : DataType) : Except InspectionFault Value :=
  match decodeSample t s.payload with
  | .error fault => .error (.decode fault)
  | .ok v => .ok v

def json (s : Sample) (t : DataType) : Except InspectionFault Json :=
  (s.value t).map t.renderer

def keyJson (s : Sample) (t : DataType) : Except InspectionFault String :=
  match s.value t with
  | .error e => .error e
  | .ok v => (keyRecord t v).map fun r => (r.1.renderer r.2).compact

def keyHandle (s : Sample) (t : DataType) : Except InspectionFault InstanceHandle :=
  match s.value t with
  | .error e => .error e
  | .ok v => handleOf t v

end Sample

structure Introspection where
  keyNames : DataType → List String
  keyJson : DataType → Sample → Except InspectionFault String
  keyHandle : DataType → Sample → Except InspectionFault InstanceHandle

/-- Answers from the type itself and the bytes of the sample. -/
def Introspection.dynamic : Introspection :=
  ⟨DataType.keyNames, fun t s => s.keyJson t, fun t s => s.keyHandle t⟩

end BusScope
