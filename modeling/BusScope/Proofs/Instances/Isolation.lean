import BusScope.Proofs.Instances.History

/-! Topics do not meet. What is known of one topic depends on the events that concern it and on no
others, not even through the capacity, which is counted topic by topic. -/

namespace BusScope

/-- A reset concerns every topic. -/
def InstanceEvent.concerns (topicName : String) : InstanceEvent → Bool
  | .sample name _ _ => name == topicName
  | .writer _ name _ => name == topicName
  | .clear => true

namespace Instances

structure AgreeOn (topicName : String) (m m' : Instances) : Prop where
  capacity : m.capacity = m'.capacity
  keyNames : m.keyNames.find? topicName = m'.keyNames.find? topicName
  records : ∀ handle, m.records.find? ⟨topicName, handle⟩ = m'.records.find? ⟨topicName, handle⟩

namespace AgreeOn

variable {topicName : String} {m m' : Instances}

theorem refl (m : Instances) : AgreeOn topicName m m := ⟨rfl, rfl, fun _ => rfl⟩

theorem keyNamesOf (h : AgreeOn topicName m m') :
    m.keyNamesOf topicName = m'.keyNamesOf topicName :=
  congrArg (·.getD []) h.keyNames

theorem count (h : AgreeOn topicName m m') : m.count topicName = m'.count topicName := by
  have hcount : (m.count topicName : ℕ∞) = m'.count topicName := by
    rw [count_eq_encard, count_eq_encard]
    simp only [h.records]
  exact_mod_cast hcount

theorem put (h : AgreeOn topicName m m') (handle : InstanceHandle) (r : Instance) :
    AgreeOn topicName (m.put ⟨topicName, handle⟩ r) (m'.put ⟨topicName, handle⟩ r) where
  capacity := h.capacity
  keyNames := h.keyNames
  records other := by
    show (m.records.insert _ r).find? _ = (m'.records.insert _ r).find? _
    rw [SortedMap.find?_insert, SortedMap.find?_insert, h.records]

theorem enroll (h : AgreeOn topicName m m') (q : Introspection) (handle : InstanceHandle)
    (t : DataType) (s : Sample) :
    AgreeOn topicName (m.enroll q ⟨topicName, handle⟩ t s).1
      (m'.enroll q ⟨topicName, handle⟩ t s).1 := by
  unfold Instances.enroll
  rw [h.records, h.count, h.capacity]
  split
  · exact h
  split
  · exact h
  split
  · exact h.put _ _
  split
  · exact h
  · exact h.put _ _

theorem add (h : AgreeOn topicName m m') (q : Introspection) (t : DataType) (s : Sample) :
    AgreeOn topicName (m.add q topicName t s).1 (m'.add q topicName t s).1 := by
  -- Taken apart, since both sides note the key names of the topic before they look any further.
  obtain ⟨capacity, names, records⟩ := m
  obtain ⟨capacity', names', records'⟩ := m'
  obtain rfl : capacity = capacity' := h.capacity
  have hnoted : AgreeOn topicName
      ⟨capacity, names.insertNew topicName (q.keyNames t), records⟩
      ⟨capacity, names'.insertNew topicName (q.keyNames t), records'⟩ := by
    have hk : names.find? topicName = names'.find? topicName := h.keyNames
    refine ⟨rfl, ?_, h.records⟩
    show (names.insertNew _ _).find? _ = (names'.insertNew _ _).find? _
    rw [SortedMap.find?_insertNew, SortedMap.find?_insertNew, hk]
  unfold Instances.add
  split
  · exact h
  next handle _ =>
  have hfind : records.find? ⟨topicName, handle⟩ = records'.find? ⟨topicName, handle⟩ :=
    h.records handle
  dsimp only
  rw [hnoted.keyNamesOf, hnoted.count, hfind]
  split
  · exact hnoted
  cases records'.find? ⟨topicName, handle⟩ with
  | some r =>
    dsimp only
    split
    · exact hnoted.enroll q handle t s
    · exact hnoted.put handle _
  | none =>
    dsimp only
    split
    · exact hnoted
    · exact hnoted.enroll q handle t s

theorem depart (h : AgreeOn topicName m m') (w : Guid) :
    AgreeOn topicName (m.depart w topicName) (m'.depart w topicName) where
  capacity := h.capacity
  keyNames := h.keyNames
  records handle := by rw [find?_depart, find?_depart, h.records]

theorem step {e : InstanceEvent} (h : AgreeOn topicName m m') (q : Introspection)
    (he : e.concerns topicName = true) :
    AgreeOn topicName (Instances.step q m e) (Instances.step q m' e) := by
  cases e with
  | sample name t s =>
    obtain rfl : name = topicName := beq_iff_eq.mp he
    exact h.add q t s
  | writer w name active =>
    obtain rfl : name = topicName := beq_iff_eq.mp he
    cases active with
    | true => exact h
    | false => exact h.depart w
  | clear => exact ⟨h.capacity, rfl, fun _ => rfl⟩

theorem step_of_not_concerns {e : InstanceEvent} (q : Introspection) (m : Instances)
    (he : e.concerns topicName = false) : AgreeOn topicName (Instances.step q m e) m := by
  cases e with
  | sample name t s =>
    have hne : topicName ≠ name := fun h => by simp [InstanceEvent.concerns, h] at he
    have hout := outcome_add q m name t s
    refine ⟨hout.capacity, hout.keyNames topicName hne, fun handle => ?_⟩
    show (m.add q name t s).1.records.find? _ = _
    rcases hout.records with ⟨-, hrecords⟩ | ⟨other, r, -, -, hrecords⟩
    · rw [hrecords]
    · rw [hrecords, SortedMap.find?_insert, if_neg fun h => hne (congrArg (·.topicName) h)]
  | writer w name active =>
    have hne : topicName ≠ name := fun h => by simp [InstanceEvent.concerns, h] at he
    cases active with
    | true => exact refl m
    | false =>
      refine ⟨rfl, rfl, fun handle => ?_⟩
      show (m.depart w name).records.find? _ = _
      rw [find?_depart, if_neg hne]
  | clear => cases he

theorem trans {m'' : Instances} (h : AgreeOn topicName m m') (h' : AgreeOn topicName m' m'') :
    AgreeOn topicName m m'' :=
  ⟨h.capacity.trans h'.capacity, h.keyNames.trans h'.keyNames,
    fun handle => (h.records handle).trans (h'.records handle)⟩

end AgreeOn

/-- A topic fares as if nothing but the events that concern it had happened. -/
theorem agreeOn_run_filter (q : Introspection) (capacity : Nat) (events : List InstanceEvent)
    (topicName : String) :
    AgreeOn topicName (run q capacity events)
      (run q capacity (events.filter (·.concerns topicName))) := by
  induction events using List.reverseRecOn with
  | nil => exact AgreeOn.refl _
  | append_singleton events e ih =>
    rw [run_append_singleton, List.filter_append]
    by_cases he : e.concerns topicName = true
    · rw [List.filter_cons_of_pos he, List.filter_nil, run_append_singleton]
      exact ih.step q he
    · rw [List.filter_cons_of_neg he, List.filter_nil, List.append_nil]
      exact (AgreeOn.step_of_not_concerns q _ (Bool.eq_false_iff.mpr he)).trans ih

end Instances

end BusScope
