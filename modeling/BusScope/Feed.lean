import BusScope.Network

/-!
What the transport reports, on its way into the state of the network. The observer's own entities,
endpoints on reserved topics and samples on topics that are not let through stay out. Announcements
may also be routed on the reserved topics.
-/

namespace BusScope

universe u

/-- `own` is what the identifiers of the observer's own entities begin with. -/
structure Feed (ο : Type u) where
  network : Network ο
  own : Option (Vector UInt8 12) := none
  rule : TopicRule := {}

inductive FeedEvent where
  | participantFound (p : Participant)
  | participantLost (p : Participant)
  | endpointFound (e : Endpoint)
  | endpointLost (e : Endpoint)
  | schema (t : DataType)
  | data (topic : Topic) (sample : Sample)

namespace Feed

variable {ο : Type u}

def isOwn (f : Feed ο) (g : Guid) : Bool := f.own == some g.participant

def accept (f : Feed ο) (a : Announcement) : Feed ο :=
  { f with network := match a with
    | .participant p => f.network.participantEvent p
    | .endpoint e => f.network.endpointEvent e }

def participant (f : Feed ο) (p : Participant) : Feed ο :=
  if f.isOwn p.guid then f else f.accept (.participant p)

def endpoint (f : Feed ο) (e : Endpoint) : Feed ο :=
  if f.isOwn e.guid || e.topic.isReserved then f else f.accept (.endpoint e)

/-- An announcement that came as data on a reserved topic, which must be the one for its kind. -/
def route (f : Feed ο) (t : Topic) (a : Announcement) : Except RoutingFault (Feed ο) :=
  match Channel.ofTopic? t with
  | none => .error (.notReserved t.name)
  | some channel => (channel.accept a).map f.accept

def reload (f : Feed ο) (rule : TopicRule) : Feed ο := { f with rule := rule }

def admits (f : Feed ο) (t : Topic) : Bool := !t.isReserved && f.rule.permits t.id

def step (f : Feed ο) : FeedEvent → Feed ο × Dispatch ο
  | .participantFound p => (f.participant { p with active := true }, .ignored)
  | .participantLost p => (f.participant { p with active := false }, .ignored)
  | .endpointFound e => (f.endpoint { e with active := true }, .ignored)
  | .endpointLost e => (f.endpoint { e with active := false }, .ignored)
  | .schema t => ({ f with network := f.network.register t }, .ignored)
  | .data topic sample =>
    if f.admits topic then
      let (network, dispatch) := f.network.addData topic sample
      ({ f with network := network }, dispatch)
    else (f, .ignored)

end Feed

end BusScope
