import BusScope.Guid
import BusScope.Topic

/-!
Participants and endpoints as discovery announces them, the topics reserved for routing such
announcements, and what is routed on them. A topic that bears a reserved name is reserved whatever
else it says.
-/

namespace BusScope

structure Participant where
  name : String
  guid : Guid
  active : Bool
deriving DecidableEq

def Participant.toJson (p : Participant) : Json :=
  .object [("name", .text p.name), ("guid", .text p.guid.text), ("active", .bool p.active)]

inductive EndpointKind where
  | reader
  | writer
deriving DecidableEq, Repr

def EndpointKind.text : EndpointKind → String
  | .reader => "reader"
  | .writer => "writer"

/-- `discoverer` names the participant through which the endpoint was found. -/
structure Endpoint where
  guid : Guid
  kind : EndpointKind
  topic : Topic
  discoverer : String
  active : Bool
deriving DecidableEq

namespace Endpoint

def isWriter (e : Endpoint) : Bool := e.kind == .writer

def isReader (e : Endpoint) : Bool := e.kind == .reader

def toJson (e : Endpoint) : Json :=
  .object [("guid", .text e.guid.text), ("kind", .text e.kind.text), ("topic", e.topic.toJson),
    ("discoverer_participant_id", .text e.discoverer), ("active", .bool e.active)]

end Endpoint

/-- Announcements of one kind share a reserved topic. -/
inductive Channel where
  | participants
  | endpoints
deriving DecidableEq, Repr

namespace Channel

def discriminator : Channel → String
  | .participants => "participant::type::v0"
  | .endpoints => "endpoint::type::v0"

def topicName : Channel → String
  | .participants => "__internal__/participant_info"
  | .endpoints => "__internal__/endpoint_info"

def typeName : Channel → String
  | .participants => "__internal__::participant_info"
  | .endpoints => "__internal__::endpoint_info"

def topic (c : Channel) : Topic := ⟨c.topicName, c.typeName, some c.discriminator, {}⟩

def carries (c : Channel) (t : Topic) : Bool := t.discriminator == some c.discriminator

def ofTopic? (t : Topic) : Option Channel := [participants, endpoints].find? (·.carries t)

end Channel

def Topic.isReserved (t : Topic) : Bool :=
  [Channel.participants, Channel.endpoints].any fun c => c.carries t || t.name == c.topicName

inductive Announcement where
  | participant (p : Participant)
  | endpoint (e : Endpoint)

namespace Announcement

def channel : Announcement → Channel
  | .participant _ => .participants
  | .endpoint _ => .endpoints

def toJson : Announcement → Json
  | .participant p => p.toJson
  | .endpoint e => e.toJson

end Announcement

inductive RoutingFault where
  | notReserved (topicName : String)
  | wrongChannel (expected found : Channel)
deriving DecidableEq, Repr

def RoutingFault.message : RoutingFault → String
  | .notReserved topicName => "Topic " ++ topicName ++ " is not an internal topic"
  | .wrongChannel expected found =>
    "Expected " ++ expected.discriminator ++ " data, got " ++ found.discriminator

def Channel.accept (c : Channel) (a : Announcement) : Except RoutingFault Announcement :=
  if a.channel = c then .ok a else .error (.wrongChannel c a.channel)

end BusScope
