import BusScope.Discovery
import BusScope.Instances
import BusScope.Rates
import BusScope.Stream

/-!
The state of the network as seen so far: its participants and endpoints, the types and rates of its
topics, their live instances, and the stream of samples to an observer. Of repeated arrivals the
first counts, until the departure.
-/

namespace BusScope

universe u

structure NetworkSettings where
  demangleTypes : Bool := false
  maxInstances : Nat := 1000
  historyDepth : UInt32 := History.defaultDepth
deriving DecidableEq, Repr

structure Network (ο : Type u) where
  settings : NetworkSettings
  introspection : Introspection
  participants : SortedMap Guid Participant
  endpoints : SortedMap Guid Endpoint
  rates : Rates
  instances : Instances
  stream : Stream ο

namespace Network

variable {ο : Type u}

def empty (settings : NetworkSettings) (introspection : Introspection) : Network ο where
  settings := settings
  introspection := introspection
  participants := .empty
  endpoints := .empty
  rates := .empty
  instances := { capacity := settings.maxInstances }
  stream := {}

def readerQos (n : Network ο) : Qos := .withDepth n.settings.historyDepth

def participantEvent (n : Network ο) (p : Participant) : Network ο :=
  { n with participants :=
      if p.active then n.participants.insertNew p.guid p else n.participants.erase p.guid }

/-- The arrival or departure of an endpoint. A departing writer lets go of the instances of the
topic it was known to write, or else of the topic its departure names. -/
def endpointEvent (n : Network ο) (e : Endpoint) : Network ο :=
  if e.active then { n with endpoints := n.endpoints.insertNew e.guid e }
  else
    let known := (n.endpoints.find? e.guid).getD e
    { n with
      endpoints := n.endpoints.erase e.guid
      instances :=
        if known.isWriter then n.instances.depart e.guid known.topic.name else n.instances }

/-- The first endpoint's topic of that name, in the order of identifiers. -/
def topic? (n : Network ο) (name : String) : Option Topic :=
  (n.endpoints.findValue? fun e => e.topic.name == name).map (·.topic)

def topics (n : Network ο) : List TopicId := sortedDistinct (n.endpoints.values.map (·.topic.id))

def register (n : Network ο) (t : DataType) : Network ο := { n with stream := n.stream.register t }

def isDiscovered (n : Network ο) (id : TopicId) : Bool := n.stream.types.knows id.typeName

def typeOf? (n : Network ο) (id : TopicId) : Option DataType := n.stream.types.find? id.typeName

/-- Takes account of a sample: of its arrival, of its instance once its type is known, and of the
observer it may be for. -/
def addData (n : Network ο) (t : Topic) (s : Sample) : Network ο × Dispatch ο :=
  let instances := match n.stream.types.find? t.typeName with
    | some type => (n.instances.add n.introspection t.name type s).1
    | none => n.instances
  ({ n with rates := n.rates.record t.id s.timestamp, instances := instances },
    n.stream.dispatch t s)

def activateAll (n : Network ο) (observer : ο) : Network ο :=
  { n with stream := n.stream.activateAll observer }

def activate? (n : Network ο) (id : TopicId) (observer : ο) : Option (Network ο) :=
  (n.stream.activate? id observer).map fun s => { n with stream := s }

def activatePattern? (n : Network ο) (filter : TopicFilter) (observer : ο) : Option (Network ο) :=
  (n.stream.activatePattern? n.topics filter observer).map fun s => { n with stream := s }

def deactivate (n : Network ο) : Network ο := { n with stream := n.stream.deactivate }

end Network

end BusScope
