import BusScope.Introspection
import BusScope.SortedMap
import BusScope.TopicFilter

/-!
The types discovered so far, and the forwarding of samples to one observer. A type is never
forgotten; one discovered again under the same name takes the place of the earlier one. At most one
activation is in force, for all topics, for one or for those that match a pattern; a new one takes
its place, and one that is refused changes nothing. A sample is forwarded only if the type of its
topic is known.
-/

namespace BusScope

universe u

abbrev TypeCatalog := SortedMap String DataType

namespace TypeCatalog

def register (c : TypeCatalog) (t : DataType) : TypeCatalog := c.insert t.name t

def knows (c : TypeCatalog) (name : String) : Bool := c.contains name

end TypeCatalog

inductive Activation (ο : Type u) where
  | off
  | all (observer : ο)
  | topic (id : TopicId) (observer : ο)
  | pattern (filter : TopicFilter) (observer : ο)

structure Delivery (ο : Type u) where
  observer : ο
  topic : Topic
  type : DataType
  sample : Sample

/-- `untyped` tells that a topic was activated whose type has gone missing. -/
inductive Dispatch (ο : Type u) where
  | ignored
  | delivered (d : Delivery ο)
  | untyped (id : TopicId)

def Dispatch.delivery? {ο : Type u} : Dispatch ο → Option (Delivery ο)
  | .delivered d => some d
  | _ => none

structure Stream (ο : Type u) where
  types : TypeCatalog := .empty
  activation : Activation ο := .off

namespace Stream

variable {ο : Type u}

def register (s : Stream ο) (t : DataType) : Stream ο := { s with types := s.types.register t }

def isActive (s : Stream ο) : Bool :=
  match s.activation with
  | .off => false
  | _ => true

def deactivate (s : Stream ο) : Stream ο := { s with activation := .off }

def activateAll (s : Stream ο) (observer : ο) : Stream ο := { s with activation := .all observer }

/-- Refused unless the type of the topic is known. -/
def activate? (s : Stream ο) (id : TopicId) (observer : ο) : Option (Stream ο) :=
  if s.types.knows id.typeName then some { s with activation := .topic id observer } else none

/-- Refused unless some of the topics matches and has a known type. -/
def activatePattern? (s : Stream ο) (topics : List TopicId) (filter : TopicFilter) (observer : ο) :
    Option (Stream ο) :=
  if topics.any fun id => filter.accepts id && s.types.knows id.typeName then
    some { s with activation := .pattern filter observer }
  else none

def handOver (s : Stream ο) (observer : ο) (topic : Topic) (sample : Sample)
    (unknown : Dispatch ο) : Dispatch ο :=
  match s.types.find? topic.typeName with
  | some type => .delivered ⟨observer, topic, type, sample⟩
  | none => unknown

def dispatch (s : Stream ο) (topic : Topic) (sample : Sample) : Dispatch ο :=
  match s.activation with
  | .off => .ignored
  | .all observer => s.handOver observer topic sample .ignored
  | .topic id observer =>
    if id = topic.id then s.handOver observer topic sample (.untyped id) else .ignored
  | .pattern filter observer =>
    if filter.accepts topic.id then s.handOver observer topic sample .ignored else .ignored

end Stream

end BusScope
