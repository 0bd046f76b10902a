import BusScope.Discovery
import BusScope.Number.Layout

/-!
Entries and details of participants, endpoints and topics, as reports list them. Type names are
those to display. Lists that are empty are left out of a detail. Rates have at most three decimal
places, a half rounded away from zero, and no zeros at the end.
-/

namespace BusScope.Report

open Number

def roundedRate (rate : Float) : Float := (rate * 1000).round / 1000

def rateText (rate : Float) : String :=
  Layout.plain.write (Binary64.ofFloat (roundedRate rate)).unpack ++ " Hz"

structure ParticipantEntry where
  name : String
  guid : Guid
deriving DecidableEq

structure EndpointTally where
  topicName : String
  typeName : String
  number : Nat
deriving DecidableEq

structure ParticipantDetail where
  name : String
  guid : Guid
  writers : List EndpointTally
  readers : List EndpointTally
deriving DecidableEq

structure EndpointEntry where
  guid : Guid
  participant : String
  topicName : String
  typeName : String
deriving DecidableEq

structure EndpointDetail where
  guid : Guid
  participant : String
  topicName : String
  typeName : String
  durability : Durability
  reliability : Reliability
deriving DecidableEq

structure TopicEntry where
  name : String
  typeName : String
  writers : Nat
  readers : Nat
  rate : Float

structure TopicDetail where
  name : String
  typeName : String
  writers : List Guid
  readers : List Guid
  rate : Float
  discovered : Bool
  keyNames : List String
  instances : List String

def listed {α : Type} (name : String) (f : α → String) (items : List α) : List (String × Json) :=
  if items.isEmpty then [] else [(name, .texts (items.map f))]

def ParticipantEntry.toJson (p : ParticipantEntry) : Json :=
  .object [("name", .text p.name), ("guid", .text p.guid.text)]

def EndpointTally.text (t : EndpointTally) : String :=
  (TopicId.mk t.topicName t.typeName).text ++ " (" ++ toString t.number ++ ")"

def ParticipantDetail.toJson (p : ParticipantDetail) : Json :=
  .object ([("name", .text p.name), ("guid", .text p.guid.text)] ++
    listed "datawriters" EndpointTally.text p.writers ++
    listed "datareaders" EndpointTally.text p.readers)

def EndpointEntry.toJson (e : EndpointEntry) : Json :=
  .object [("guid", .text e.guid.text), ("participant", .text e.participant),
    ("topic", .text (TopicId.mk e.topicName e.typeName).text)]

def EndpointDetail.toJson (e : EndpointDetail) : Json :=
  .object [("guid", .text e.guid.text), ("participant", .text e.participant),
    ("topic", .object [("name", .text e.topicName), ("type", .text e.typeName)]),
    ("qos", .object [("durability", .text e.durability.text),
      ("reliability", .text e.reliability.text)])]

def TopicEntry.toJson (t : TopicEntry) : Json :=
  .object [("name", .text t.name), ("type", .text t.typeName), ("datawriters", .nat t.writers),
    ("datareaders", .nat t.readers), ("rate", .text (rateText t.rate))]

def TopicDetail.toJson (t : TopicDetail) : Json :=
  .object ([("name", .text t.name), ("type", .text t.typeName)] ++
    listed "datawriters" Guid.text t.writers ++ listed "datareaders" Guid.text t.readers ++
    [("rate", .text (rateText t.rate)), ("dynamic_type_discovered", .bool t.discovered)] ++
    listed "key_fields" id t.keyNames ++ listed "instances" id t.instances)

end BusScope.Report
