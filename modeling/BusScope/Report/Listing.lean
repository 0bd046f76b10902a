import BusScope.Demangling
import BusScope.Network
import BusScope.Report.Record

/-!
Reports on the state of the network. Participants and endpoints are listed in the order of their
identifiers, topics by name and then by type.
-/

namespace BusScope.Network

open Report

universe u

variable {ο : Type u}

def typeLabel (n : Network ο) (typeName : String) : String :=
  BusScope.typeLabel n.settings.demangleTypes typeName

def activeEndpoints (n : Network ο) : List Endpoint := n.endpoints.values.filter (·.active)

def activeParticipants (n : Network ο) : List Participant :=
  n.participants.values.filter (·.active)

def endpointsOfKind (n : Network ο) (kind : EndpointKind) : List Endpoint :=
  n.activeEndpoints.filter (·.kind == kind)

def endpointsOn (n : Network ο) (kind : EndpointKind) (id : TopicId) : List Guid :=
  ((n.endpointsOfKind kind).filter (·.topic.id == id)).map (·.guid)

def ownerName (n : Network ο) (g : Guid) : String :=
  match n.activeParticipants.find? (·.guid.sameParticipant g) with
  | some p => p.name
  | none => ""

def tallies (n : Network ο) (kind : EndpointKind) (g : Guid) : List EndpointTally :=
  let owned := (n.endpointsOfKind kind).filter (·.guid.sameParticipant g)
  let ids := owned.map (·.topic.id)
  (sortedDistinct ids).map fun id => ⟨id.name, n.typeLabel id.typeName, ids.count id⟩

def participantDetail (n : Network ο) (p : Participant) : ParticipantDetail :=
  ⟨p.name, p.guid, n.tallies .writer p.guid, n.tallies .reader p.guid⟩

def participantEntries (n : Network ο) : List ParticipantEntry :=
  n.activeParticipants.map fun p => ⟨p.name, p.guid⟩

def participantDetails (n : Network ο) : List ParticipantDetail :=
  n.activeParticipants.map n.participantDetail

def participant? (n : Network ο) (g : Guid) : Option ParticipantDetail :=
  (n.participants.find? g).map n.participantDetail

def endpointEntry (n : Network ο) (e : Endpoint) : EndpointEntry :=
  ⟨e.guid, n.ownerName e.guid, e.topic.name, n.typeLabel e.topic.typeName⟩

def endpointDetail (n : Network ο) (e : Endpoint) : EndpointDetail where
  guid := e.guid
  participant := n.ownerName e.guid
  topicName := e.topic.name
  typeName := n.typeLabel e.topic.typeName
  durability := e.topic.qos.durability
  reliability := e.topic.qos.reliability

def endpointEntries (n : Network ο) (kind : EndpointKind) : List EndpointEntry :=
  (n.endpointsOfKind kind).map n.endpointEntry

def endpointDetails (n : Network ο) (kind : EndpointKind) : List EndpointDetail :=
  (n.endpointsOfKind kind).map n.endpointDetail

def anyEndpoint? (n : Network ο) (g : Guid) : Option EndpointDetail :=
  ((n.endpoints.find? g).filter (·.active)).map n.endpointDetail

def endpoint? (n : Network ο) (kind : EndpointKind) (g : Guid) : Option EndpointDetail :=
  ((n.endpoints.find? g).filter fun e => e.active && e.kind == kind).map n.endpointDetail

def activeTopics (n : Network ο) : List TopicId :=
  sortedDistinct (n.activeEndpoints.map (·.topic.id))

def topicEntry (n : Network ο) (id : TopicId) : TopicEntry where
  name := id.name
  typeName := n.typeLabel id.typeName
  writers := (n.endpointsOn .writer id).length
  readers := (n.endpointsOn .reader id).length
  rate := n.rates.perSecond id

def topicDetail (n : Network ο) (id : TopicId) : TopicDetail where
  name := id.name
  typeName := n.typeLabel id.typeName
  writers := n.endpointsOn .writer id
  readers := n.endpointsOn .reader id
  rate := n.rates.perSecond id
  discovered := n.isDiscovered id
  keyNames := n.instances.keyNamesOf id.name
  instances := n.instances.active id.name

def topicEntries (n : Network ο) : List TopicEntry := n.activeTopics.map n.topicEntry

def topicDetail? (n : Network ο) (name : String) : Option TopicDetail :=
  (n.activeEndpoints.find? (·.topic.name == name)).map fun e => n.topicDetail e.topic.id

def topicDetails (n : Network ο) : List TopicDetail :=
  n.activeTopics.filterMap fun id => n.topicDetail? id.name

end BusScope.Network
