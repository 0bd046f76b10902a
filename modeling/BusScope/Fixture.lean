import BusScope.Discovery
import BusScope.Introspection

/-!
Participants, endpoints, types and samples for trials: identifiers that share their first bytes,
records of 32-bit integers with any number of keys, and samples of them.
-/

namespace BusScope.Fixture

def participant : Vector UInt8 12 := #v[0x01, 0x0F, 0, 0, 0, 0, 0, 0, 0, 0, 0, 0]

def guid (participant : Vector UInt8 12) (entity : UInt32) : Guid :=
  ⟨participant, ⟨(ByteOrder.big.bytes 4 entity.toNat).toArray, by simp⟩⟩

def seededGuid (seed : UInt8) : Guid := ⟨participant, #v[0, 0, 0, seed]⟩

def seededName (seed : UInt8) : String := "participant_" ++ toString seed.toNat

def seededParticipant (active : Bool) (seed : UInt8) : Participant :=
  ⟨seededName seed, seededGuid seed, active⟩

def seededEndpoint (kind : EndpointKind) (active : Bool) (seed : UInt8) (topic : Topic) : Endpoint :=
  ⟨seededGuid seed, kind, topic, seededName seed, active⟩

def typeWithKeys (name : String) (keys : List String) : DataType :=
  .struct name (keys.map (fun k => (Field.ofPrimitive k .int32).asKey) ++
    [.ofPrimitive "value" .int32])

def keyedType (name : String) : DataType := typeWithKeys name ["id"]

def unkeyedType (name : String) : DataType := typeWithKeys name []

/-- The first value listed for each member, and 42 where none is. -/
def recordOf (t : DataType) (values : List (String × Int32)) : Value :=
  .ofMembers ((t.fields?.getD []).map fun f =>
    (f.name, .scalar (.int32 ((values.lookup f.name).getD 42))))

def sample (t : DataType) (values : List (String × Int32)) (writer : Guid) : Sample :=
  let v := recordOf t values
  ⟨(encodeSample t v).toOption.getD [], writer, (handleOf t v).toOption.getD .nil, .zero⟩

def keyedSample (t : DataType) (id : Int32) (writer : Guid) : Sample := sample t [("id", id)] writer

end BusScope.Fixture
