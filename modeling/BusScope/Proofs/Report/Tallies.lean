import BusScope.Proofs.Network.Registry

/-! The numbers in reports add up. Topics are counted one at a time and the tallies of a participant
group by group, but each registered endpoint comes into exactly one of the counts. -/

namespace BusScope

universe u

theorem TopicId.compare_eq_lt {a b : TopicId} : compare a b = .lt ↔
    a.name < b.name ∨ (a.name = b.name ∧ a.typeName < b.typeName) := by
  show (compare a.name b.name).then (compare a.typeName b.typeName) = .lt ↔ _
  rw [Ordering.then_eq_lt, compare_lt_iff_lt, compare_lt_iff_lt, compare_eq_iff_eq]

theorem sum_count_eq_length {α : Type*} [DecidableEq α] {groups xs : List α} (hn : groups.Nodup)
    (h : ∀ x ∈ xs, x ∈ groups) : (groups.map (xs.count ·)).sum = xs.length := by
  rw [← List.sum_toFinset _ hn]
  have hcard := Multiset.sum_count_eq_card (s := groups.toFinset) (m := (xs : Multiset α))
    fun x hx => List.mem_toFinset.mpr (h x hx)
  simpa using hcard

theorem sum_count_sortedDistinct {κ : Type u} [Ord κ] [Std.TransOrd κ] [Std.LawfulEqOrd κ]
    [DecidableEq κ] (xs : List κ) : ((sortedDistinct xs).map (xs.count ·)).sum = xs.length :=
  sum_count_eq_length (nodup_sortedDistinct xs) fun _ hx => mem_sortedDistinct.mpr hx

namespace Network

open Report

variable {ο : Type u}

structure Describes (n : Network ο) (id : TopicId) (entry : TopicEntry) : Prop where
  name : entry.name = id.name
  typeName : entry.typeName = n.typeLabel id.typeName
  writers : (entry.writers : ℕ∞) = (n.endpointSet .writer (·.topic.id = id)).encard
  readers : (entry.readers : ℕ∞) = (n.endpointSet .reader (·.topic.id = id)).encard

/-- A tally tells of one topic, and of how many of the participant's registered endpoints of one kind
are on it, which are some. -/
structure Counts (n : Network ο) (kind : EndpointKind) (owner : Guid) (id : TopicId)
    (tally : EndpointTally) : Prop where
  name : tally.topicName = id.name
  typeName : tally.typeName = n.typeLabel id.typeName
  positive : 0 < tally.number
  number : (tally.number : ℕ∞) =
    (n.endpointSet kind fun e => e.guid.participant = owner.participant ∧ e.topic.id = id).encard

/-- The tallies are of different topics, and together they count all that the participant has. -/
structure Tallied (n : Network ο) (kind : EndpointKind) (owner : Guid)
    (tallies : List EndpointTally) : Prop where
  groups : ∃ ids : List TopicId, ids.Nodup ∧ List.Forall₂ (n.Counts kind owner) ids tallies
  total : (((tallies.map (·.number)).sum : ℕ) : ℕ∞) =
    (n.endpointSet kind fun e => e.guid.participant = owner.participant).encard

theorem length_endpointsOn (n : Network ο) (kind : EndpointKind) (id : TopicId) :
    (n.endpointsOn kind id).length = ((n.endpointsOfKind kind).map (·.topic.id)).count id := by
  rw [endpointsOn, List.length_map, List.count_eq_length_filter, List.filter_map, List.length_map]
  rfl

theorem mem_activeTopics_of_endpoint (n : Network ο) (kind : EndpointKind) {id : TopicId}
    (hid : id ∈ (n.endpointsOfKind kind).map (·.topic.id)) : id ∈ n.activeTopics := by
  obtain ⟨e, he, rfl⟩ := List.mem_map.mp hid
  exact mem_sortedDistinct.mpr (List.mem_map_of_mem (List.mem_filter.mp he).1)

theorem sum_length_endpointsOn (n : Network ο) (kind : EndpointKind) :
    (n.activeTopics.map fun id => (n.endpointsOn kind id).length).sum =
      (n.endpointsOfKind kind).length := by
  have hsum := sum_count_eq_length (nodup_sortedDistinct _)
    fun id hid => mem_activeTopics_of_endpoint n kind hid
  simp only [length_endpointsOn]
  rw [List.length_map] at hsum
  exact hsum

section Registered

variable {n : Network ο} (h : Registered n)

include h

theorem describes_topicEntry (id : TopicId) : n.Describes id (n.topicEntry id) where
  name := rfl
  typeName := rfl
  writers := by
    show ((n.endpointsOn .writer id).length : ℕ∞) = _
    rw [endpointsOn, List.length_map, length_filter_endpointsOfKind h]
    simp only [beq_iff_eq]
  readers := by
    show ((n.endpointsOn .reader id).length : ℕ∞) = _
    rw [endpointsOn, List.length_map, length_filter_endpointsOfKind h]
    simp only [beq_iff_eq]

theorem tallied_tallies (kind : EndpointKind) (owner : Guid) :
    n.Tallied kind owner (n.tallies kind owner) := by
  let owned := (n.endpointsOfKind kind).filter (·.guid.sameParticipant owner)
  let ids := owned.map (·.topic.id)
  refine ⟨⟨sortedDistinct ids, nodup_sortedDistinct ids, ?_⟩, ?_⟩
  · refine List.forall₂_map_right_iff.mpr (List.forall₂_same.mpr fun id hid => ?_)
    have hcount : ids.count id = (owned.filter (·.topic.id == id)).length := by
      rw [List.count_eq_length_filter, List.filter_map, List.length_map]
      rfl
    refine ⟨rfl, rfl, List.count_pos_iff.mpr (mem_sortedDistinct.mp hid), ?_⟩
    show (ids.count id : ℕ∞) = _
    rw [hcount, List.filter_filter, length_filter_endpointsOfKind h]
    simp only [Bool.and_eq_true, Guid.sameParticipant_iff, beq_iff_eq, and_comm]
  · have hsum : ((n.tallies kind owner).map (·.number)).sum = owned.length := by
      show (((sortedDistinct ids).map _).map _).sum = _
      rw [List.map_map]
      exact (sum_count_sortedDistinct ids).trans (List.length_map _)
    rw [hsum, length_filter_endpointsOfKind h]
    simp only [Guid.sameParticipant_iff]

end Registered

/-- Nothing is left out of the listings or counted twice. -/
theorem reports_add_up (settings : NetworkSettings) (q : Introspection)
    (events : List NetworkEvent) :
    let n : Network ο := (empty settings q).run events
    (∃ ids : List TopicId,
      (ids.Pairwise fun a b => a.name < b.name ∨ (a.name = b.name ∧ a.typeName < b.typeName)) ∧
      (∀ id, id ∈ ids ↔ n.InUse id) ∧ List.Forall₂ n.Describes ids n.topicEntries) ∧
    (n.topicEntries.map (·.writers)).sum = (n.endpointEntries .writer).length ∧
    (n.topicEntries.map (·.readers)).sum = (n.endpointEntries .reader).length ∧
    (∀ kind, ((n.endpointEntries kind).length : ℕ∞) =
      (n.endpointSet kind fun _ => True).encard) ∧
    ∀ g p, n.participants.find? g = some p → ∃ detail, n.participant? g = some detail ∧
      detail.name = p.name ∧ detail.guid = g ∧
      n.Tallied .writer g detail.writers ∧ n.Tallied .reader g detail.readers := by
  intro n
  have h : Registered n := registered_run settings q events
  refine ⟨⟨n.activeTopics, ?_, fun id => mem_activeTopics h, ?_⟩, ?_, ?_, fun kind => ?_, ?_⟩
  · exact (sortedDistinct_sorted _).imp TopicId.compare_eq_lt.mp
  · exact List.forall₂_map_right_iff.mpr
      (List.forall₂_same.mpr fun id _ => describes_topicEntry h id)
  · rw [topicEntries, endpointEntries, List.map_map, List.length_map]
    exact n.sum_length_endpointsOn .writer
  · rw [topicEntries, endpointEntries, List.map_map, List.length_map]
    exact n.sum_length_endpointsOn .reader
  · rw [endpointEntries, List.length_map]
    exact length_endpointsOfKind h kind
  · intro g p hp
    have hg : p.guid = g := (h.participants g p hp).1
    refine ⟨n.participantDetail p, by rw [participant?, hp]; rfl, rfl, hg, ?_, ?_⟩
    · exact hg ▸ tallied_tallies h .writer p.guid
    · exact hg ▸ tallied_tallies h .reader p.guid

end Network

end BusScope
