import BusScope.Fixture
import BusScope.Proofs.Feed.Passage

/-! The observer's own entities and the endpoints on reserved topics. Reports of them are left out,
whatever else goes on, so that none is ever registered on account of a report. Announcements that
are routed as data are taken in unseen, and through them any may come to be registered. -/

namespace BusScope

universe u

variable {ο : Type u}

namespace Announcement

theorem isPlumbing_of_own {P : Vector UInt8 12} {a : Announcement} (h : a.guid.participant = P) :
    a.isPlumbing (some P) = true := by
  cases a <;> simp_all [isPlumbing, guid]

@[simp]
theorem participant?_eq_some_iff {a : Announcement} {p : Participant} :
    a.participant? = some p ↔ a = .participant p := by
  cases a <;> simp [participant?]

@[simp]
theorem endpoint?_eq_some_iff {a : Announcement} {e : Endpoint} :
    a.endpoint? = some e ↔ a = .endpoint e := by
  cases a <;> simp [endpoint?]

theorem heardOf_filterMap {α : Type} {select : Announcement → Option α} {guidOf : α → Guid}
    (h : ∀ a x, select a = some x → guidOf x = a.guid) (l : List Announcement) (g : Guid) :
    Registry.heardOf guidOf (l.filterMap select) g =
      (l.filter fun a => a.guid = g).filterMap select := by
  rw [Registry.heardOf, List.filter_filterMap, List.filterMap_filter]
  refine List.filterMap_congr fun a _ => ?_
  cases hx : select a with
  | none => simp
  | some x => by_cases hg : a.guid = g <;> simp [h a x hx, hg]

theorem heardOf_participants (l : List Announcement) (g : Guid) :
    Registry.heardOf Participant.guid (l.filterMap participant?) g =
      (l.filter fun a => a.guid = g).filterMap participant? :=
  heardOf_filterMap (fun a p h => by rw [participant?_eq_some_iff.mp h]; rfl) l g

theorem heardOf_endpoints (l : List Announcement) (g : Guid) :
    Registry.heardOf Endpoint.guid (l.filterMap endpoint?) g =
      (l.filter fun a => a.guid = g).filterMap endpoint? :=
  heardOf_filterMap (fun a e h => by rw [endpoint?_eq_some_iff.mp h]; rfl) l g

end Announcement

namespace FeedOp

variable {op : FeedOp ο} {a : Announcement} {own : Option (Vector UInt8 12)}

theorem announced?_of_plumbing (h : op.announced? own = some a) (ha : a.isPlumbing own = true) :
    op.routed? = some a := by
  unfold announced? at h
  cases hop : op.reported? with
  | none =>
    rw [hop] at h
    exact h
  | some b =>
    rw [hop, Option.filter_some] at h
    by_cases hb : b.isPlumbing own = true
    · rw [hb] at h
      exact h
    · rw [if_pos (by simpa using hb)] at h
      cases h
      exact absurd ha hb

theorem announced?_of_routed? (h : op.routed? = some a) : op.announced? own = some a := by
  cases op with
  | route topic b => exact h
  | event | reload | activateAll | activate | activatePattern | deactivate => cases h

theorem mem_routed_of_plumbing {ops : List (FeedOp ο)}
    (h : a ∈ ops.filterMap (announced? own)) (ha : a.isPlumbing own = true) :
    a ∈ ops.filterMap routed? := by
  obtain ⟨op, hop, h⟩ := List.mem_filterMap.mp h
  exact List.mem_filterMap.mpr ⟨op, hop, announced?_of_plumbing h ha⟩

theorem filter_announced_of_own {P : Vector UInt8 12} {g : Guid} (hg : g.participant = P)
    (ops : List (FeedOp ο)) :
    (ops.filterMap (announced? (some P))).filter (fun a => a.guid = g) =
      (ops.filterMap routed?).filter fun a => a.guid = g := by
  rw [List.filter_filterMap, List.filter_filterMap]
  refine List.filterMap_congr fun op _ => Option.ext fun a => ?_
  rw [Option.filter_eq_some_iff, Option.filter_eq_some_iff]
  refine and_congr_left fun ha => ⟨fun h => announced?_of_plumbing h ?_, announced?_of_routed?⟩
  have ha : a.guid = g := by simpa using ha
  exact Announcement.isPlumbing_of_own (ha ▸ hg)

end FeedOp

namespace Feed

open Registry Announcement

theorem netEffect_run_start (settings : NetworkSettings) (q : Introspection)
    (own : Option (Vector UInt8 12)) (rule : TopicRule) (ops : List (FeedOp ο)) :
    NetEffect Participant.guid Participant.active
      ((ops.filterMap (FeedOp.announced? own)).filterMap (·.participant?))
      ((start settings q own rule).run ops).1.network.participants ∧
    NetEffect Endpoint.guid Endpoint.active
      ((ops.filterMap (FeedOp.announced? own)).filterMap (·.endpoint?))
      ((start settings q own rule).run ops).1.network.endpoints := by
  have hpassed : ops.filterMap (FeedOp.announced? own) =
      ((start settings q own rule).passed ops).filterMap NetworkEvent.announcement? :=
    (filterMap_passed (start settings q own rule) ops).symm
  -- The activation does not matter to the registries.
  show NetEffect _ _ _ ((start settings q own rule).run ops).1.network.deactivate.participants ∧
    NetEffect _ _ _ ((start settings q own rule).run ops).1.network.deactivate.endpoints
  rw [hpassed, ← NetworkEvent.filterMap_participant?, ← NetworkEvent.filterMap_endpoint?,
    network_run_start]
  exact ⟨Network.netEffect_participants settings q _, Network.netEffect_endpoints settings q _⟩

section

variable {settings : NetworkSettings} {q : Introspection} {P : Vector UInt8 12}
  {rule : TopicRule} {ops : List (FeedOp ο)} {g : Guid}

theorem routed_of_participant {p : Participant}
    (h : ((start settings q (some P) rule).run ops).1.network.participants.find? g = some p)
    (hg : g.participant = P) :
    .participant p ∈ ops.filterMap FeedOp.routed? ∧ isPlumbing (some P) (.participant p) = true := by
  obtain ⟨hmem, rfl, -⟩ := (netEffect_run_start settings q (some P) rule ops).1.own g p h
  have hplumbing : isPlumbing (some P) (.participant p) = true := isPlumbing_of_own hg
  exact ⟨FeedOp.mem_routed_of_plumbing (by simpa using hmem) hplumbing, hplumbing⟩

theorem routed_of_endpoint {e : Endpoint}
    (h : ((start settings q (some P) rule).run ops).1.network.endpoints.find? g = some e)
    (hg : g.participant = P ∨ e.topic.isReserved = true) :
    .endpoint e ∈ ops.filterMap FeedOp.routed? ∧ isPlumbing (some P) (.endpoint e) = true := by
  obtain ⟨hmem, rfl, -⟩ := (netEffect_run_start settings q (some P) rule ops).2.own g e h
  have hplumbing : isPlumbing (some P) (.endpoint e) = true := by
    rcases hg with hg | hreserved
    · exact isPlumbing_of_own hg
    · rw [isPlumbing, hreserved, Bool.or_true]
  exact ⟨FeedOp.mem_routed_of_plumbing (by simpa using hmem) hplumbing, hplumbing⟩

end

/-- What is registered of the observer's own entities is the net effect of the announcements that
were routed, as if there had been no reports at all, and an endpoint on a reserved topic was routed.
So as long as nothing of the kind is routed, nothing of the kind is ever registered. -/
theorem plumbing_only_by_routing (settings : NetworkSettings) (q : Introspection)
    (P : Vector UInt8 12) (rule : TopicRule) (ops : List (FeedOp ο)) :
    let n := ((start settings q (some P) rule).run ops).1.network
    let routed := ops.filterMap FeedOp.routed?
    (∀ g, g.participant = P →
      n.participants.find? g = standing? Participant.active
        (heardOf Participant.guid (routed.filterMap (·.participant?)) g) ∧
      n.endpoints.find? g = standing? Endpoint.active
        (heardOf Endpoint.guid (routed.filterMap (·.endpoint?)) g)) ∧
    (∀ g e, n.endpoints.find? g = some e → e.topic.isReserved = true → .endpoint e ∈ routed) ∧
    ((∀ a ∈ routed, a.isPlumbing (some P) = false) →
      (∀ g, n.participants.contains g = true → g.participant ≠ P) ∧
      ∀ g e, n.endpoints.find? g = some e →
        g.participant ≠ P ∧ e.topic.isReserved = false) := by
  intro n routed
  obtain ⟨hparticipants, hendpoints⟩ := netEffect_run_start settings q (some P) rule ops
  refine ⟨fun g hg => ?_, fun g e he hreserved => (routed_of_endpoint he (.inr hreserved)).1,
    fun hnone => ⟨fun g hg hown => ?_, fun g e he => ?_⟩⟩
  · have hsame := FeedOp.filter_announced_of_own hg ops
    constructor
    · rw [hparticipants.record, heardOf_participants, heardOf_participants, hsame]
    · rw [hendpoints.record, heardOf_endpoints, heardOf_endpoints, hsame]
  · obtain ⟨p, hp⟩ := SortedMap.contains_iff.mp hg
    obtain ⟨hmem, hplumbing⟩ := routed_of_participant hp hown
    exact absurd hplumbing (by simp [hnone _ hmem])
  · have hclean : ¬ (g.participant = P ∨ e.topic.isReserved = true) := by
      intro hg
      obtain ⟨hmem, hplumbing⟩ := routed_of_endpoint he hg
      exact absurd hplumbing (by simp [hnone _ hmem])
    simpa using hclean

def plumbingRouted : List (FeedOp Unit) :=
  [.route Channel.participants.topic (.participant (Fixture.seededParticipant true 1)),
    .route Channel.endpoints.topic
      (.endpoint (Fixture.seededEndpoint .writer true 2 ⟨"positions", "Position", none, {}⟩)),
    .route Channel.endpoints.topic (.endpoint ⟨.zero, .writer, Channel.endpoints.topic, "", true⟩)]

/-- The observer lists itself and what it goes by, once that is routed. -/
theorem routed_plumbing_is_registered :
    let n := ((start {} .dynamic (some Fixture.participant) {}).run plumbingRouted).1.network
    n.participants.contains (Fixture.seededGuid 1) = true ∧
      n.endpoints.contains (Fixture.seededGuid 2) = true ∧
      (Fixture.seededGuid 1).participant = Fixture.participant ∧
      (Fixture.seededGuid 2).participant = Fixture.participant ∧
      ∃ e, n.endpoints.find? .zero = some e ∧ e.topic.isReserved = true := by
  refine ⟨by decide +kernel, by decide +kernel, rfl, rfl, _, rfl, by decide +kernel⟩

end Feed

end BusScope
