import BusScope.Proofs.Network.Presence
import BusScope.Report.Listing

/-! The registries of participants and endpoints in the states that runs come to. What is registered
stands under its own identifier and has not departed, so that reports, which leave out what is not
active, leave out nothing. -/

namespace BusScope

universe u

namespace Network

variable {ο : Type u}

structure Registered (n : Network ο) : Prop where
  participants : ∀ g p, n.participants.find? g = some p → p.guid = g ∧ p.active = true
  endpoints : ∀ g e, n.endpoints.find? g = some e → e.guid = g ∧ e.active = true

theorem registered_run (settings : NetworkSettings) (q : Introspection)
    (events : List NetworkEvent) : Registered ((empty settings q : Network ο).run events) where
  participants g p h := ((netEffect_participants settings q events).own g p h).2
  endpoints g e h := ((netEffect_endpoints settings q events).own g e h).2

/-- The registered endpoints of one kind that meet the condition. -/
def endpointSet (n : Network ο) (kind : EndpointKind) (p : Endpoint → Prop) : Set Guid :=
  {g | ∃ e, n.endpoints.find? g = some e ∧ e.kind = kind ∧ p e}

def InUse (n : Network ο) (id : TopicId) : Prop :=
  ∃ g e, n.endpoints.find? g = some e ∧ e.topic.id = id

section Registered

variable {n : Network ο} (h : Registered n)

include h

theorem activeEndpoints_eq : n.activeEndpoints = n.endpoints.values := by
  refine List.filter_eq_self.mpr fun e he => ?_
  obtain ⟨g, hg⟩ := SortedMap.mem_values.mp he
  exact (h.endpoints g e hg).2

theorem mem_activeTopics {id : TopicId} : id ∈ n.activeTopics ↔ n.InUse id := by
  unfold activeTopics
  rw [activeEndpoints_eq h, mem_sortedDistinct, List.mem_map]
  constructor
  · intro hid
    obtain ⟨e, he, hid⟩ := hid
    obtain ⟨g, hg⟩ := SortedMap.mem_values.mp he
    exact ⟨g, e, hg, hid⟩
  · intro hid
    obtain ⟨g, e, hg, hid⟩ := hid
    exact ⟨e, SortedMap.mem_values.mpr ⟨g, hg⟩, hid⟩

theorem length_filter_endpointsOfKind (kind : EndpointKind) (p : Endpoint → Bool) :
    (((n.endpointsOfKind kind).filter p).length : ℕ∞) =
      (n.endpointSet kind fun e => p e = true).encard := by
  unfold endpointsOfKind
  rw [activeEndpoints_eq h, List.filter_filter, SortedMap.length_filter_values]
  congr 1
  ext g
  simp [endpointSet, and_comm]

theorem length_endpointsOfKind (kind : EndpointKind) :
    ((n.endpointsOfKind kind).length : ℕ∞) = (n.endpointSet kind fun _ => True).encard := by
  have hall := length_filter_endpointsOfKind h kind fun _ => true
  rw [List.filter_true] at hall
  simpa using hall

theorem mem_endpointsOn {kind : EndpointKind} {id : TopicId} {g : Guid} :
    g ∈ n.endpointsOn kind id ↔ g ∈ n.endpointSet kind fun e => e.topic.id = id := by
  unfold endpointsOn endpointsOfKind
  rw [activeEndpoints_eq h, List.filter_filter, List.mem_map]
  constructor
  · intro hg
    obtain ⟨e, he, rfl⟩ := hg
    obtain ⟨hmem, hp⟩ := List.mem_filter.mp he
    obtain ⟨g, hg⟩ := SortedMap.mem_values.mp hmem
    rw [(h.endpoints g e hg).1]
    have hp : e.topic.id = id ∧ e.kind = kind := by simpa using hp
    exact ⟨e, hg, hp.2, hp.1⟩
  · intro hg
    obtain ⟨e, hg, hkind, hid⟩ := hg
    refine ⟨e, List.mem_filter.mpr ⟨SortedMap.mem_values.mpr ⟨g, hg⟩, ?_⟩, (h.endpoints g e hg).1⟩
    simp [hkind, hid]

end Registered

end Network

end BusScope
