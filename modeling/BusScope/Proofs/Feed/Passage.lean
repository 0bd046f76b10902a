import BusScope.Proofs.Network.Presence
import BusScope.Proofs.Streaming.Exactness

/-! What gets from the feed through to the network. But for the activation, which only calls of its
own set, the network at the end of a run of the feed is what a run of the network comes to on the
events that got through. -/

namespace BusScope

universe u

variable {ο : Type u}

namespace Announcement

def event : Announcement → NetworkEvent
  | .participant p => .participant p
  | .endpoint e => .endpoint e

def participant? : Announcement → Option Participant
  | .participant p => some p
  | .endpoint _ => none

def endpoint? : Announcement → Option Endpoint
  | .participant _ => none
  | .endpoint e => some e

def guid : Announcement → Guid
  | .participant p => p.guid
  | .endpoint e => e.guid

/-- Of an entity of the observer's own, or of an endpoint on a reserved topic. -/
def isPlumbing (own : Option (Vector UInt8 12)) : Announcement → Bool
  | .participant p => own == some p.guid.participant
  | .endpoint e => own == some e.guid.participant || e.topic.isReserved

end Announcement

namespace FeedOp

def reported? : FeedOp ο → Option Announcement
  | .event (.participantFound p) => some (.participant { p with active := true })
  | .event (.participantLost p) => some (.participant { p with active := false })
  | .event (.endpointFound e) => some (.endpoint { e with active := true })
  | .event (.endpointLost e) => some (.endpoint { e with active := false })
  | _ => none

def routed? : FeedOp ο → Option Announcement
  | .route topic a => if Channel.ofTopic? topic = some a.channel then some a else none
  | _ => none

/-- The announcement that gets through. What is reported must not be plumbing, and what is routed
may be anything. -/
def announced? (own : Option (Vector UInt8 12)) (op : FeedOp ο) : Option Announcement :=
  (op.reported?.filter fun a => !a.isPlumbing own).or op.routed?

end FeedOp

namespace Feed

def passed? (f : Feed ο) : FeedOp ο → Option NetworkEvent
  | .event (.schema t) => some (.schema t)
  | .event (.data topic s) => if f.admits topic then some (.data topic s) else none
  | op => (op.announced? f.own).map (·.event)

/-- The events that get through in the course of the operations. -/
def passed (f : Feed ο) : List (FeedOp ο) → List NetworkEvent
  | [] => []
  | op :: rest => (f.passed? op).toList ++ (f.perform op).1.passed rest

end Feed

theorem Network.deactivate_step (n : Network ο) (e : NetworkEvent) :
    (n.step e).deactivate = n.deactivate.step e := by
  cases e with
  | participant p => rfl
  | endpoint e =>
    show (n.endpointEvent e).deactivate = n.deactivate.endpointEvent e
    unfold endpointEvent
    by_cases ha : e.active = true
    · rw [if_pos ha, if_pos ha]
      rfl
    · rw [if_neg ha, if_neg ha]
      rfl
  | schema t => rfl
  | data topic s => rfl

theorem Network.run_append (n : Network ο) (events more : List NetworkEvent) :
    n.run (events ++ more) = (n.run events).run more :=
  List.foldl_append

namespace Feed

theorem network_accept (f : Feed ο) (a : Announcement) :
    (f.accept a).network = f.network.step a.event := by
  cases a <;> rfl

theorem perform_reported {f : Feed ο} {op : FeedOp ο} {a : Announcement}
    (h : op.reported? = some a) :
    (f.perform op).1 = if a.isPlumbing f.own = true then f else f.accept a := by
  cases op with
  | event e =>
    cases e with
    | participantFound | participantLost | endpointFound | endpointLost => cases h; rfl
    | schema | data => cases h
  | route | reload | activateAll | activate | activatePattern | deactivate => cases h

theorem perform_route (f : Feed ο) (topic : Topic) (a : Announcement) :
    (f.perform (.route topic a)).1 =
      if Channel.ofTopic? topic = some a.channel then f.accept a else f := by
  show (f.route topic a).toOption.getD f = _
  unfold route
  cases Channel.ofTopic? topic with
  | none => rfl
  | some channel =>
    show (Except.map f.accept (channel.accept a)).toOption.getD f = _
    unfold Channel.accept
    by_cases h : a.channel = channel
    · rw [if_pos h, if_pos (congrArg some h.symm)]
      rfl
    · rw [if_neg h, if_neg fun hc => h (Option.some.inj hc).symm]
      rfl

theorem own_perform (f : Feed ο) (op : FeedOp ο) : (f.perform op).1.own = f.own := by
  cases hop : op.reported? with
  | some a =>
    rw [perform_reported hop]
    split <;> rfl
  | none =>
    cases op with
    | event e =>
      cases e with
      | data topic s =>
        show (f.step (.data topic s)).1.own = f.own
        unfold step
        dsimp only
        split <;> rfl
      | schema t => rfl
      | participantFound | participantLost | endpointFound | endpointLost => cases hop
    | route topic a =>
      rw [perform_route]
      split <;> rfl
    | reload | activateAll | activate | activatePattern | deactivate => rfl

theorem passed?_reported {f : Feed ο} {op : FeedOp ο} {a : Announcement}
    (h : op.reported? = some a) :
    f.passed? op = if a.isPlumbing f.own = true then none else some a.event := by
  have hpassed : f.passed? op = (op.announced? f.own).map (·.event) := by
    cases op with
    | event e =>
      cases e with
      | participantFound | participantLost | endpointFound | endpointLost => rfl
      | schema | data => cases h
    | route | reload | activateAll | activate | activatePattern | deactivate => cases h
  have hrouted : op.routed? = none := by
    cases op with
    | route topic a => cases h
    | event | reload | activateAll | activate | activatePattern | deactivate => rfl
  rw [hpassed, FeedOp.announced?, h, hrouted, Option.or_none, Option.filter_some]
  by_cases ha : a.isPlumbing f.own = true <;> simp [ha]

/-- One operation does to the network, activation apart, what the event does that gets through. -/
theorem deactivate_perform (f : Feed ο) (op : FeedOp ο) :
    (f.perform op).1.network.deactivate = f.network.deactivate.run (f.passed? op).toList := by
  have haccept : ∀ a, (f.accept a).network.deactivate =
      f.network.deactivate.run [a.event] := fun a => by
    rw [network_accept]
    exact f.network.deactivate_step a.event
  cases hop : op.reported? with
  | some a =>
    rw [perform_reported hop, passed?_reported hop]
    split
    · rfl
    · exact haccept a
  | none =>
    cases op with
    | event e =>
      cases e with
      | data topic s =>
        show (f.step (.data topic s)).1.network.deactivate =
          f.network.deactivate.run (if f.admits topic then some (.data topic s) else none).toList
        unfold step
        dsimp only
        split
        · exact f.network.deactivate_step (.data topic s)
        · rfl
      | schema t => rfl
      | participantFound | participantLost | endpointFound | endpointLost => cases hop
    | route topic a =>
      rw [perform_route]
      show _ = f.network.deactivate.run ((if Channel.ofTopic? topic = some a.channel then some a
        else none).map (·.event)).toList
      split
      · exact haccept a
      · rfl
    | reload | activateAll | deactivate => rfl
    | activate id observer =>
      show ((f.network.activate? id observer).getD f.network).deactivate = f.network.deactivate
      rcases f.network.activate?_cases id observer with h | ⟨-, h⟩ <;> rw [h] <;> rfl
    | activatePattern filter observer =>
      show ((f.network.activatePattern? filter observer).getD f.network).deactivate =
        f.network.deactivate
      rcases f.network.activatePattern?_cases filter observer with h | h <;> rw [h] <;> rfl

theorem deactivate_run (f : Feed ο) (ops : List (FeedOp ο)) :
    (f.run ops).1.network.deactivate = f.network.deactivate.run (f.passed ops) := by
  induction ops generalizing f with
  | nil => rfl
  | cons op rest ih =>
    rw [run_cons, ih, deactivate_perform, passed, Network.run_append]

theorem network_run_start (settings : NetworkSettings) (q : Introspection)
    (own : Option (Vector UInt8 12)) (rule : TopicRule) (ops : List (FeedOp ο)) :
    ((start settings q own rule).run ops).1.network.deactivate =
      (Network.empty settings q).run ((start settings q own rule).passed ops) :=
  deactivate_run _ ops

section

variable {f : Feed ο}

theorem perform_of_blocked (topic : Topic) (s : Sample) (h : f.admits topic = false) :
    f.perform (.event (.data topic s)) = (f, .ignored) := by
  show f.step (.data topic s) = _
  rw [step, h]
  rfl

theorem passed?_eq_data {op : FeedOp ο} {topic : Topic} {s : Sample}
    (h : f.passed? op = some (.data topic s)) : op = .event (.data topic s) ∧ f.admits topic = true := by
  have hevent : ∀ a : Option Announcement, a.map (·.event) ≠ some (.data topic s) := by
    rintro (_ | (_ | _)) h <;> cases h
  cases op with
  | event e =>
    cases e with
    | data topic' s' =>
      obtain ⟨ha, he⟩ := Option.ite_none_right_eq_some.mp h
      cases he
      exact ⟨rfl, ha⟩
    | schema t => cases h
    | participantFound | participantLost | endpointFound | endpointLost => exact absurd h (hevent _)
  | route => exact absurd h (hevent _)
  | reload | activateAll | activate | activatePattern | deactivate => cases h

theorem passed?_of_delivery {op : FeedOp ο} {d : Delivery ο}
    (h : (f.perform op).2.delivery? = some d) : f.passed? op = some (.data d.topic d.sample) := by
  cases op with
  | event e =>
    cases e with
    | data topic s =>
      by_cases ha : f.admits topic = true
      · have hdispatch : (f.network.stream.dispatch topic s).delivery? = some d := by
          have hstep : (f.step (.data topic s)).2 = f.network.stream.dispatch topic s := by
            rw [step, if_pos ha]
            rfl
          exact hstep ▸ h
        rw [Stream.delivery?_dispatch] at hdispatch
        obtain ⟨observer, -, hd⟩ := Option.bind_eq_some_iff.mp hdispatch
        obtain ⟨type, -, rfl⟩ := Option.map_eq_some_iff.mp hd
        exact if_pos ha
      · rw [perform_of_blocked topic s (by simpa using ha)] at h
        cases h
    | participantFound | participantLost | endpointFound | endpointLost | schema => cases h
  | route | reload | activateAll | activate | activatePattern | deactivate => cases h

theorem passed_of_delivered {ops : List (FeedOp ο)} {d : Delivery ο} (h : d ∈ (f.run ops).2) :
    .data d.topic d.sample ∈ f.passed ops := by
  induction ops generalizing f with
  | nil => cases h
  | cons op rest ih =>
    rcases List.mem_append.mp h with h | h
    · exact List.mem_append_left _ (by simp [passed?_of_delivery (Option.mem_toList.mp h)])
    · exact List.mem_append_right _ (ih h)

end

end Feed

def NetworkEvent.announcement? : NetworkEvent → Option Announcement
  | .participant p => some (.participant p)
  | .endpoint e => some (.endpoint e)
  | _ => none

theorem NetworkEvent.filterMap_participant? (events : List NetworkEvent) :
    events.filterMap participant? = (events.filterMap announcement?).filterMap (·.participant?) := by
  rw [List.filterMap_filterMap]
  exact List.filterMap_congr fun e _ => by cases e <;> rfl

theorem NetworkEvent.filterMap_endpoint? (events : List NetworkEvent) :
    events.filterMap endpoint? = (events.filterMap announcement?).filterMap (·.endpoint?) := by
  rw [List.filterMap_filterMap]
  exact List.filterMap_congr fun e _ => by cases e <;> rfl

namespace Feed

theorem announcement?_passed? (f : Feed ο) (op : FeedOp ο) :
    (f.passed? op).bind NetworkEvent.announcement? = op.announced? f.own := by
  have hevent : ∀ a : Option Announcement,
      (a.map (·.event)).bind NetworkEvent.announcement? = a := fun a => by
    rcases a with _ | (_ | _) <;> rfl
  cases op with
  | event e =>
    cases e with
    | participantFound | participantLost | endpointFound | endpointLost => exact hevent _
    | schema t => rfl
    | data topic s =>
      show (if f.admits topic then some (NetworkEvent.data topic s) else none).bind _ = none
      split <;> rfl
  | route topic a => exact hevent _
  | reload | activateAll | activate | activatePattern | deactivate => rfl

/-- Which announcements get through depends on nothing that happens on the way. -/
theorem filterMap_passed (f : Feed ο) (ops : List (FeedOp ο)) :
    (f.passed ops).filterMap NetworkEvent.announcement? =
      ops.filterMap (FeedOp.announced? f.own) := by
  induction ops generalizing f with
  | nil => rfl
  | cons op rest ih =>
    rw [passed, List.filterMap_append, ih, own_perform, List.filterMap_cons,
      ← announcement?_passed?]
    cases f.passed? op with
    | none => rfl
    | some e => cases h : NetworkEvent.announcement? e <;> simp [h]

end Feed

end BusScope
