import BusScope.Instances
import BusScope.Proofs.SortedMap

/-! What one sample and one departure do to the instances, and what the questions about a topic
say of its records. A sample touches at most the record of its own instance, a departure at most
the records of one topic. -/

namespace BusScope

namespace Instances

/-- What becomes of the record that a sample is accepted for, if one was known. A record without
keys gets those of the sample, any other keeps its own. -/
structure Admits (q : Introspection) (known : Option Instance) (handle : InstanceHandle)
    (t : DataType) (s : Sample) (r : Instance) : Prop where
  handle : resolve q t s = .ok handle
  writers : ∀ w, r.writers.contains w = true ↔
    w = s.writer ∨ ∃ old ∈ known, old.writers.contains w = true
  keys : r.keys ≠ ""
  origin : (∃ old ∈ known, old.keys = r.keys) ∨
    (∀ old ∈ known, old.keys = "") ∧ q.keyJson t s = .ok r.keys

/-- All that can come of a sample. It is turned away and leaves the records as they are, or it is
accepted and one record is put in; what is known of other topics stays. -/
structure Outcome (q : Introspection) (m : Instances) (topicName : String) (t : DataType)
    (s : Sample) (result : Instances × Bool) : Prop where
  capacity : result.1.capacity = m.capacity
  keyNames : ∀ other ≠ topicName, result.1.keyNames.find? other = m.keyNames.find? other
  records : (result.2 = false ∧ result.1.records = m.records) ∨
    ∃ handle r, Admits q (m.records.find? ⟨topicName, handle⟩) handle t s r ∧
      result.2 = true ∧ result.1.records = m.records.insert ⟨topicName, handle⟩ r

section Add

variable {q : Introspection} {m : Instances} {topicName : String} {handle : InstanceHandle}
  {t : DataType} {s : Sample}

theorem outcome_refused : Outcome q m topicName t s (m, false) where
  capacity := rfl
  keyNames _ _ := rfl
  records := .inl ⟨rfl, rfl⟩

theorem outcome_put {r : Instance} (hr : Admits q (m.records.find? ⟨topicName, handle⟩) handle t s r) :
    Outcome q m topicName t s (m.put ⟨topicName, handle⟩ r, true) where
  capacity := rfl
  keyNames _ _ := rfl
  records := .inr ⟨handle, r, hr, rfl, rfl⟩

theorem outcome_enroll (hhandle : resolve q t s = .ok handle)
    (hkeys : ∀ old ∈ m.records.find? ⟨topicName, handle⟩, old.keys = "") :
    Outcome q m topicName t s (m.enroll q ⟨topicName, handle⟩ t s) := by
  unfold enroll
  split
  · exact outcome_refused
  next keys hjson =>
  split
  · exact outcome_refused
  next hne =>
  have hkey : keys ≠ "" := by simpa using hne
  split
  · next old hold =>
    refine outcome_put ⟨hhandle, fun w => ?_, hkey, .inr ⟨hkeys, hjson⟩⟩
    rw [SortedMap.contains_insert, hold]
    simp
  · next hnone =>
    split
    · exact outcome_refused
    · refine outcome_put ⟨hhandle, fun w => ?_, hkey, .inr ⟨hkeys, hjson⟩⟩
      rw [SortedMap.contains_ofKeys, hnone]
      simp

theorem Outcome.of_insertNew (names : List String) {result : Instances × Bool}
    (h : Outcome q { m with keyNames := m.keyNames.insertNew topicName names } topicName t s
      result) : Outcome q m topicName t s result where
  capacity := h.capacity
  keyNames other ho := by
    rw [h.keyNames other ho, SortedMap.find?_insertNew, if_neg ho]
  records := h.records

theorem outcome_add (q : Introspection) (m : Instances) (topicName : String) (t : DataType)
    (s : Sample) : Outcome q m topicName t s (m.add q topicName t s) := by
  unfold add
  split
  · exact outcome_refused
  next handle hhandle =>
  refine Outcome.of_insertNew (q.keyNames t) ?_
  dsimp only
  split
  · exact outcome_refused
  split
  · next old hold =>
    split
    · next hempty =>
      refine outcome_enroll hhandle fun o ho => ?_
      cases hold.symm.trans ho
      simpa using hempty
    · next hne =>
      refine outcome_put ⟨hhandle, fun w => ?_, by simpa using hne, .inl ⟨old, hold, rfl⟩⟩
      rw [SortedMap.contains_insert, hold]
      simp
  · next hnone =>
    split
    · exact outcome_refused
    · exact outcome_enroll hhandle fun o ho => absurd (hnone.symm.trans ho) (by simp)

end Add

theorem find?_depart (m : Instances) (writer : Guid) (topicName : String) (id : InstanceId) :
    (m.depart writer topicName).records.find? id =
      if id.topicName = topicName then
        ((m.records.find? id).map fun r => { r with writers := r.writers.erase writer }).filter
          fun r => !r.writers.isEmpty
      else m.records.find? id := by
  unfold depart
  rw [SortedMap.find?_filter, SortedMap.find?_mapValues]
  by_cases h : id.topicName = topicName
  · simp [h]
  · cases m.records.find? id <;> simp [h]

section Views

variable {m : Instances} {topicName : String}

theorem find?_filter_topic {id : InstanceId} {r : Instance} :
    (m.records.filter fun id _ => id.topicName == topicName).find? id = some r ↔
      id.topicName = topicName ∧ m.records.find? id = some r := by
  rw [SortedMap.find?_filter, Option.filter_eq_some_iff, beq_iff_eq, and_comm]

theorem mem_onTopic {r : Instance} :
    r ∈ m.onTopic topicName ↔ ∃ handle, m.records.find? ⟨topicName, handle⟩ = some r := by
  unfold onTopic
  rw [SortedMap.mem_values]
  constructor
  · intro hr
    obtain ⟨⟨name, handle⟩, h⟩ := hr
    obtain ⟨rfl, hfind⟩ := find?_filter_topic.mp h
    exact ⟨handle, hfind⟩
  · intro hr
    obtain ⟨handle, h⟩ := hr
    exact ⟨⟨topicName, handle⟩, find?_filter_topic.mpr ⟨rfl, h⟩⟩

theorem mem_writersOf {w : Guid} : w ∈ m.writersOf topicName ↔
    ∃ handle r, m.records.find? ⟨topicName, handle⟩ = some r ∧ r.writers.contains w = true := by
  unfold writersOf
  rw [mem_sortedDistinct, List.mem_flatMap]
  constructor
  · intro hw
    obtain ⟨r, hr, hw⟩ := hw
    obtain ⟨handle, h⟩ := mem_onTopic.mp hr
    exact ⟨handle, r, h, SortedMap.contains_iff.mpr (SortedMap.mem_keys.mp hw)⟩
  · intro hw
    obtain ⟨handle, r, h, hw⟩ := hw
    exact ⟨r, mem_onTopic.mpr ⟨handle, h⟩, SortedMap.mem_keys.mpr (SortedMap.contains_iff.mp hw)⟩

theorem mem_active {keys : String} : keys ∈ m.active topicName ↔
    ∃ handle r, m.records.find? ⟨topicName, handle⟩ = some r ∧ r.writers.isEmpty = false ∧
      r.keys = keys := by
  unfold active
  rw [mem_sortedDistinct, List.mem_map]
  constructor
  · intro hk
    obtain ⟨r, hr, rfl⟩ := hk
    obtain ⟨hmem, halive⟩ := List.mem_filter.mp hr
    obtain ⟨handle, h⟩ := mem_onTopic.mp hmem
    exact ⟨handle, r, h, by simpa using halive, rfl⟩
  · intro hk
    obtain ⟨handle, r, h, halive, rfl⟩ := hk
    exact ⟨r, List.mem_filter.mpr ⟨mem_onTopic.mpr ⟨handle, h⟩, by simpa using halive⟩, rfl⟩

theorem count_eq_encard : (m.count topicName : ℕ∞) =
    {handle | ∃ r, m.records.find? ⟨topicName, handle⟩ = some r}.encard := by
  let ids := (m.records.filter fun id _ => id.topicName == topicName).keys
  have hmem : ∀ id, id ∈ ids ↔ id.topicName = topicName ∧ ∃ r, m.records.find? id = some r := by
    intro id
    rw [SortedMap.mem_keys]
    simp only [find?_filter_topic, exists_and_left]
  have hnodup : (ids.map (·.handle)).Nodup := by
    refine (List.nodup_map_iff_inj_on (SortedMap.nodup_keys _)).mpr fun a ha b hb hab => ?_
    have htopic := ((hmem a).mp ha).1.trans ((hmem b).mp hb).1.symm
    cases a
    cases b
    simp_all
  have hset : {handle | ∃ r, m.records.find? ⟨topicName, handle⟩ = some r} =
      ((ids.map (·.handle)).toFinset : Set InstanceHandle) := by
    ext handle
    rw [List.coe_toFinset, Set.mem_ofPred_eq, Set.mem_ofPred_eq, List.mem_map]
    constructor
    · intro hr
      exact ⟨⟨topicName, handle⟩, (hmem _).mpr ⟨rfl, hr⟩, rfl⟩
    · intro hr
      obtain ⟨⟨name, handle⟩, hid, rfl⟩ := hr
      obtain ⟨rfl, hr⟩ := (hmem _).mp hid
      exact hr
  rw [hset, Set.encard_coe_eq_coe_finsetCard, List.toFinset_card_of_nodup hnodup, List.length_map]
  show (((m.records.filter _).entries.map (·.2)).length : ℕ∞) =
    (((m.records.filter _).entries.map (·.1)).length : ℕ∞)
  rw [List.length_map, List.length_map]

end Views

end Instances

end BusScope
