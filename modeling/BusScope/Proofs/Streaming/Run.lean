import BusScope.Feed
import BusScope.Proofs.SortedMap

/-! Runs of the feed: reports of the transport in any order with routed announcements, new topic
rules and calls that start and stop the stream. Each operation is described by what it does to the
rule, to the known types and to the activation, which is all that deliveries depend on. -/

namespace BusScope

universe u

inductive FeedOp (ο : Type u) where
  | event (e : FeedEvent)
  | route (topic : Topic) (a : Announcement)
  | reload (rule : TopicRule)
  | activateAll (observer : ο)
  | activate (id : TopicId) (observer : ο)
  | activatePattern (filter : TopicFilter) (observer : ο)
  | deactivate

variable {ο : Type u}

def Activation.observer? (a : Activation ο) (topic : TopicId) : Option ο :=
  match a with
  | .off => none
  | .all observer => some observer
  | .topic id observer => if id = topic then some observer else none
  | .pattern filter observer => if filter.accepts topic then some observer else none

namespace Feed

/-- A refused activation leaves everything as it is, and so does an announcement that was routed on
the wrong topic. -/
def perform (f : Feed ο) : FeedOp ο → Feed ο × Dispatch ο
  | .event e => f.step e
  | .route topic a => ((f.route topic a).toOption.getD f, .ignored)
  | .reload rule => (f.reload rule, .ignored)
  | .activateAll observer => ({ f with network := f.network.activateAll observer }, .ignored)
  | .activate id observer =>
    ({ f with network := (f.network.activate? id observer).getD f.network }, .ignored)
  | .activatePattern filter observer =>
    ({ f with network := (f.network.activatePattern? filter observer).getD f.network }, .ignored)
  | .deactivate => ({ f with network := f.network.deactivate }, .ignored)

/-- The feed after the operations, and what the observers were handed on the way. -/
def run (f : Feed ο) : List (FeedOp ο) → Feed ο × List (Delivery ο)
  | [] => (f, [])
  | op :: rest =>
    let (next, dispatch) := f.perform op
    let (last, deliveries) := next.run rest
    (last, dispatch.delivery?.toList ++ deliveries)

theorem run_cons (f : Feed ο) (op : FeedOp ο) (rest : List (FeedOp ο)) :
    f.run (op :: rest) = (((f.perform op).1.run rest).1,
      (f.perform op).2.delivery?.toList ++ ((f.perform op).1.run rest).2) :=
  rfl

theorem run_append (f : Feed ο) (ops more : List (FeedOp ο)) :
    f.run (ops ++ more) = (((f.run ops).1.run more).1, (f.run ops).2 ++ ((f.run ops).1.run more).2) := by
  induction ops generalizing f with
  | nil => rfl
  | cons op ops ih => rw [List.cons_append, run_cons, run_cons, ih, List.append_assoc]

theorem run_append_singleton (f : Feed ο) (ops : List (FeedOp ο)) (op : FeedOp ο) :
    f.run (ops ++ [op]) = (((f.run ops).1.perform op).1,
      (f.run ops).2 ++ ((f.run ops).1.perform op).2.delivery?.toList) := by
  rw [run_append]
  show (_, _ ++ (_ ++ [])) = _
  rw [List.append_nil]
  rfl

end Feed

namespace FeedOp

def rule? : FeedOp ο → Option TopicRule
  | .reload rule => some rule
  | _ => none

def typeNamed? (name : String) : FeedOp ο → Option DataType
  | .event (.schema t) => if t.name = name then some t else none
  | _ => none

/-- The activation that the operation puts in force. A refused one puts none. -/
def activation? (f : Feed ο) : FeedOp ο → Option (Activation ο)
  | .activateAll observer => some (.all observer)
  | .activate id observer => (f.network.activate? id observer).map fun _ => .topic id observer
  | .activatePattern filter observer =>
    (f.network.activatePattern? filter observer).map fun _ => .pattern filter observer
  | .deactivate => some .off
  | _ => none

end FeedOp

namespace Feed

structure Undisturbed (f f' : Feed ο) : Prop where
  rule : f'.rule = f.rule
  stream : f'.network.stream = f.network.stream

theorem Undisturbed.refl (f : Feed ο) : Undisturbed f f := ⟨rfl, rfl⟩

theorem undisturbed_accept (f : Feed ο) (a : Announcement) : Undisturbed f (f.accept a) := by
  refine ⟨rfl, ?_⟩
  cases a with
  | participant p => rfl
  | endpoint e =>
    show (f.network.endpointEvent e).stream = _
    unfold Network.endpointEvent
    split <;> rfl

theorem undisturbed_participant (f : Feed ο) (p : Participant) : Undisturbed f (f.participant p) := by
  unfold participant
  split
  · exact .refl f
  · exact undisturbed_accept f _

theorem undisturbed_endpoint (f : Feed ο) (e : Endpoint) : Undisturbed f (f.endpoint e) := by
  unfold endpoint
  split
  · exact .refl f
  · exact undisturbed_accept f _

theorem undisturbed_route (f : Feed ο) (topic : Topic) (a : Announcement) :
    Undisturbed f ((f.route topic a).toOption.getD f) := by
  unfold route
  split
  · exact .refl f
  · next channel _ =>
    cases channel.accept a with
    | error e => exact .refl f
    | ok accepted => exact undisturbed_accept f accepted

theorem undisturbed_data (f : Feed ο) (topic : Topic) (sample : Sample) :
    Undisturbed f (f.step (.data topic sample)).1 := by
  unfold step
  dsimp only
  split
  · exact ⟨rfl, rfl⟩
  · exact .refl f

/-- Of what the transport reports, only a type makes a difference to the stream. -/
theorem step_cases (f : Feed ο) (e : FeedEvent) :
    (∃ t, e = .schema t) ∨ (∀ t, e ≠ .schema t) ∧ Undisturbed f (f.step e).1 := by
  cases e with
  | schema t => exact .inl ⟨t, rfl⟩
  | participantFound p => exact .inr ⟨nofun, undisturbed_participant f _⟩
  | participantLost p => exact .inr ⟨nofun, undisturbed_participant f _⟩
  | endpointFound e => exact .inr ⟨nofun, undisturbed_endpoint f _⟩
  | endpointLost e => exact .inr ⟨nofun, undisturbed_endpoint f _⟩
  | data topic sample => exact .inr ⟨nofun, undisturbed_data f topic sample⟩

end Feed

namespace Network

theorem activate?_cases (n : Network ο) (id : TopicId) (observer : ο) :
    n.activate? id observer = none ∨ n.stream.types.contains id.typeName = true ∧
      n.activate? id observer =
        some { n with stream := { n.stream with activation := .topic id observer } } := by
  unfold activate? Stream.activate?
  split
  · next h => exact .inr ⟨h, rfl⟩
  · exact .inl rfl

theorem activatePattern?_cases (n : Network ο) (filter : TopicFilter) (observer : ο) :
    n.activatePattern? filter observer = none ∨ n.activatePattern? filter observer =
      some { n with stream := { n.stream with activation := .pattern filter observer } } := by
  unfold activatePattern? Stream.activatePattern?
  split
  · exact .inr rfl
  · exact .inl rfl

end Network

theorem FeedOp.contains_of_activation? {f : Feed ο} {op : FeedOp ο} {id : TopicId} {observer : ο}
    (h : op.activation? f = some (.topic id observer)) :
    f.network.stream.types.contains id.typeName = true := by
  cases op with
  | activate id' observer' =>
    obtain ⟨n, hn, ha⟩ := Option.map_eq_some_iff.mp h
    cases ha
    rcases f.network.activate?_cases id observer with hnone | ⟨hknown, -⟩
    · rw [hnone] at hn
      cases hn
    · exact hknown
  | activatePattern filter observer' =>
    obtain ⟨n, -, ha⟩ := Option.map_eq_some_iff.mp h
    cases ha
  | event | route | reload | activateAll | deactivate => cases h

namespace Feed

theorem perform_rule (f : Feed ο) (op : FeedOp ο) :
    (f.perform op).1.rule = op.rule?.getD f.rule := by
  cases op with
  | event e =>
    rcases step_cases f e with ⟨t, rfl⟩ | ⟨-, h⟩
    · rfl
    · exact h.rule
  | route topic a => exact (undisturbed_route f topic a).rule
  | reload rule => rfl
  | activateAll observer => rfl
  | activate id observer => rfl
  | activatePattern filter observer => rfl
  | deactivate => rfl

theorem perform_types (f : Feed ο) (op : FeedOp ο) (name : String) :
    (f.perform op).1.network.stream.types.find? name =
      (op.typeNamed? name).or (f.network.stream.types.find? name) := by
  cases op with
  | event e =>
    rcases step_cases f e with ⟨t, rfl⟩ | ⟨hne, h⟩
    · show (f.network.stream.types.insert t.name t).find? name = _
      rw [SortedMap.find?_insert, FeedOp.typeNamed?]
      by_cases hn : t.name = name
      · rw [if_pos hn, if_pos hn.symm]
        rfl
      · rw [if_neg hn, if_neg (Ne.symm hn)]
        rfl
    · have hnone : (FeedOp.event e : FeedOp ο).typeNamed? name = none := by
        unfold FeedOp.typeNamed?
        split
        · next t he => exact absurd (FeedOp.event.inj he) (hne t)
        · rfl
      show (f.step e).1.network.stream.types.find? name = _
      rw [h.stream, hnone]
      rfl
  | route topic a =>
    show ((f.route topic a).toOption.getD f).network.stream.types.find? name = _
    rw [(undisturbed_route f topic a).stream]
    rfl
  | reload rule => rfl
  | activateAll observer => rfl
  | activate id observer =>
    show ((f.network.activate? id observer).getD f.network).stream.types.find? name = _
    rcases f.network.activate?_cases id observer with h | ⟨-, h⟩ <;> rw [h] <;> rfl
  | activatePattern filter observer =>
    show ((f.network.activatePattern? filter observer).getD f.network).stream.types.find? name = _
    rcases f.network.activatePattern?_cases filter observer with h | h <;> rw [h] <;> rfl
  | deactivate => rfl

theorem perform_activation (f : Feed ο) (op : FeedOp ο) :
    (f.perform op).1.network.stream.activation =
      (op.activation? f).getD f.network.stream.activation := by
  cases op with
  | event e =>
    rcases step_cases f e with ⟨t, rfl⟩ | ⟨-, h⟩
    · rfl
    · exact congrArg (·.activation) h.stream
  | route topic a => exact congrArg (·.activation) (undisturbed_route f topic a).stream
  | reload rule => rfl
  | activateAll observer => rfl
  | activate id observer =>
    show ((f.network.activate? id observer).getD f.network).stream.activation =
      ((f.network.activate? id observer).map fun _ => Activation.topic id observer).getD _
    rcases f.network.activate?_cases id observer with h | ⟨-, h⟩ <;> rw [h] <;> rfl
  | activatePattern filter observer =>
    show ((f.network.activatePattern? filter observer).getD f.network).stream.activation =
      ((f.network.activatePattern? filter observer).map fun _ =>
        Activation.pattern filter observer).getD _
    rcases f.network.activatePattern?_cases filter observer with h | h <;> rw [h] <;> rfl
  | deactivate => rfl

end Feed

end BusScope
