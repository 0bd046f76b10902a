import BusScope.Network
import BusScope.Proofs.Instances.History

/-! Runs of the network state from an empty one. Of all that comes in, the instances get to see the
samples whose type is known and the departures of writers. -/

namespace BusScope

universe u

inductive NetworkEvent where
  | participant (p : Participant)
  | endpoint (e : Endpoint)
  | schema (t : DataType)
  | data (topic : Topic) (s : Sample)

namespace Network

variable {ο : Type u}

def step (n : Network ο) : NetworkEvent → Network ο
  | .participant p => n.participantEvent p
  | .endpoint e => n.endpointEvent e
  | .schema t => n.register t
  | .data topic s => (n.addData topic s).1

def run (n : Network ο) (events : List NetworkEvent) : Network ο := events.foldl step n

theorem run_append_singleton (n : Network ο) (events : List NetworkEvent) (e : NetworkEvent) :
    n.run (events ++ [e]) = (n.run events).step e := by
  rw [run, List.foldl_append]
  rfl

/-- What the event is to the instances, if it is anything to them. -/
def instanceEvent? (n : Network ο) : NetworkEvent → Option InstanceEvent
  | .data topic s => (n.stream.types.find? topic.typeName).map (.sample topic.name · s)
  | .endpoint e =>
    let known := (n.endpoints.find? e.guid).getD e
    if e.active then none
    else if known.isWriter then some (.writer e.guid known.topic.name false)
    else none
  | .participant _ => none
  | .schema _ => none

def history (n : Network ο) : List NetworkEvent → List InstanceEvent
  | [] => []
  | e :: rest => (n.instanceEvent? e).toList ++ (n.step e).history rest

theorem history_append_singleton (n : Network ο) (events : List NetworkEvent) (e : NetworkEvent) :
    n.history (events ++ [e]) = n.history events ++ ((n.run events).instanceEvent? e).toList := by
  induction events generalizing n with
  | nil =>
    show _ ++ [] = _
    rw [List.append_nil]
    rfl
  | cons first rest ih =>
    show _ ++ (n.step first).history (rest ++ [e]) = _
    rw [ih, ← List.append_assoc]
    rfl

theorem introspection_step (n : Network ο) (e : NetworkEvent) :
    (n.step e).introspection = n.introspection := by
  cases e with
  | participant p => rfl
  | endpoint e =>
    show (n.endpointEvent e).introspection = _
    unfold endpointEvent
    split <;> rfl
  | schema t => rfl
  | data topic s => rfl

theorem introspection_run (n : Network ο) (events : List NetworkEvent) :
    (n.run events).introspection = n.introspection := by
  induction events generalizing n with
  | nil => rfl
  | cons e rest ih => exact (ih (n.step e)).trans (introspection_step n e)

theorem instances_step (n : Network ο) (e : NetworkEvent) :
    (n.step e).instances =
      (n.instanceEvent? e).toList.foldl (Instances.step n.introspection) n.instances := by
  cases e with
  | participant p => rfl
  | schema t => rfl
  | data topic s =>
    dsimp only [step, addData, instanceEvent?]
    cases n.stream.types.find? topic.typeName with
    | none => rfl
    | some type => rfl
  | endpoint e =>
    dsimp only [step, endpointEvent, instanceEvent?]
    by_cases ha : e.active = true
    · rw [if_pos ha, if_pos ha]
      rfl
    · rw [if_neg ha, if_neg ha]
      dsimp only
      by_cases hw : ((n.endpoints.find? e.guid).getD e).isWriter = true
      · rw [if_pos hw, if_pos hw]
        rfl
      · rw [if_neg hw, if_neg hw]
        rfl

theorem instances_run (n : Network ο) (events : List NetworkEvent) :
    (n.run events).instances =
      (n.history events).foldl (Instances.step n.introspection) n.instances := by
  induction events generalizing n with
  | nil => rfl
  | cons e rest ih =>
    show ((n.step e).run rest).instances = _
    rw [ih, history, List.foldl_append, introspection_step, instances_step]

theorem instances_run_empty {settings : NetworkSettings} {q : Introspection}
    {events : List NetworkEvent} : ((empty settings q : Network ο).run events).instances =
      Instances.run q settings.maxInstances ((empty settings q : Network ο).history events) :=
  instances_run _ _

end Network

end BusScope
