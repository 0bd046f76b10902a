import BusScope.Proofs.Instances.Keyless

/-! A sample is taken in as a whole or not at all, and no topic ever holds more instances than there
is room for. Only a new instance needs room. -/

namespace BusScope

namespace Instances

variable {q : Introspection} {m : Instances} {topicName : String}

theorem count_le_of_known {after : Instances} (h : ∀ handle r,
    after.records.find? ⟨topicName, handle⟩ = some r →
      ∃ old, m.records.find? ⟨topicName, handle⟩ = some old) :
    after.count topicName ≤ m.count topicName := by
  have hcount : (after.count topicName : ℕ∞) ≤ m.count topicName := by
    rw [count_eq_encard, count_eq_encard]
    refine Set.encard_le_encard fun handle hknown => ?_
    obtain ⟨r, hr⟩ := hknown
    exact h handle r hr
  exact_mod_cast hcount

theorem count_put_le (id : InstanceId) (r : Instance) :
    (m.put id r).count topicName ≤ m.count topicName + 1 := by
  have hsubset : {handle | ∃ r', (m.put id r).records.find? ⟨topicName, handle⟩ = some r'} ⊆
      insert id.handle {handle | ∃ old, m.records.find? ⟨topicName, handle⟩ = some old} := by
    intro handle hknown
    obtain ⟨r', hr'⟩ := hknown
    rw [put, SortedMap.find?_insert] at hr'
    split at hr'
    · next hid => exact .inl (congrArg (·.handle) hid)
    · exact .inr ⟨r', hr'⟩
  have hcount : ((m.put id r).count topicName : ℕ∞) ≤ m.count topicName + 1 := by
    rw [count_eq_encard, count_eq_encard]
    exact (Set.encard_le_encard hsubset).trans (Set.encard_insert_le _ _)
  exact_mod_cast hcount

def Fits (m : Instances) : Prop := ∀ topicName, m.count topicName ≤ m.capacity

namespace Fits

variable {id : InstanceId} {t : DataType} {s : Sample}

theorem put (h : Fits m) (r : Instance)
    (hroom : m.records.find? id = none → m.count id.topicName < m.capacity) :
    Fits (m.put id r) := by
  intro other
  by_cases hnew : m.records.find? id = none ∧ other = id.topicName
  · obtain ⟨hnone, rfl⟩ := hnew
    exact (count_put_le id r).trans (hroom hnone)
  · refine (count_le_of_known fun handle r' hr' => ?_).trans (h other)
    rw [Instances.put, SortedMap.find?_insert] at hr'
    split at hr'
    · next hid =>
      subst hid
      exact Option.ne_none_iff_exists'.mp fun hnone => hnew ⟨hnone, rfl⟩
    · exact ⟨r', hr'⟩

theorem enroll (h : Fits m) : Fits (m.enroll q id t s).1 := by
  unfold Instances.enroll
  split
  · exact h
  split
  · exact h
  split
  · next old hold => exact h.put _ fun hnone => absurd (hold.symm.trans hnone) (by simp)
  · split
    · exact h
    · next hroom => exact h.put _ fun _ => Nat.lt_of_not_le hroom

theorem add (h : Fits m) : Fits (m.add q topicName t s).1 := by
  cases hhandle : resolve q t s with
  | error fault => rwa [add_of_unresolved hhandle]
  | ok handle =>
    have hnoted : Fits (m.note topicName (q.keyNames t)) := h
    rw [add_of_resolved hhandle]
    split
    · exact hnoted
    split
    · next old hold =>
      split
      · exact hnoted.enroll
      · exact hnoted.put _ fun hnone => absurd (hold.symm.trans hnone) (by simp)
    · split
      · exact hnoted
      · exact hnoted.enroll

theorem depart (h : Fits m) (w : Guid) (name : String) : Fits (m.depart w name) := by
  intro other
  refine (count_le_of_known fun handle r hr => ?_).trans (h other)
  rw [find?_depart] at hr
  split at hr
  · obtain ⟨hleft, -⟩ := Option.filter_eq_some_iff.mp hr
    obtain ⟨old, hold, -⟩ := Option.map_eq_some_iff.mp hleft
    exact ⟨old, hold⟩
  · exact ⟨r, hr⟩

end Fits

theorem fits_empty (capacity : Nat) : Fits { capacity } := fun _ => Nat.zero_le _

theorem fits_run (q : Introspection) (capacity : Nat) (events : List InstanceEvent) :
    Fits (run q capacity events) := by
  induction events using List.reverseRecOn with
  | nil => exact fits_empty capacity
  | append_singleton events e ih =>
    rw [run_append_singleton]
    cases e with
    | sample name t s => exact ih.add
    | writer w name active =>
      cases active with
      | true => exact ih
      | false => exact ih.depart w name
    | clear => exact fits_empty _

theorem keyNames_step {e : InstanceEvent} {other : String} {names : List String}
    (h : m.keyNames.find? other = some names) (he : e ≠ .clear) :
    (step q m e).keyNames.find? other = some names := by
  cases e with
  | sample name t s =>
    rcases keyNames_add_cases q m name t s other with hsame | ⟨-, hnone, -⟩
    · exact hsame.trans h
    · cases h.symm.trans hnone
  | writer w name active => cases active <;> exact h
  | clear => exact absurd rfl he

theorem keyNames_run_append {capacity : Nat} {events more : List InstanceEvent} {other : String}
    {names : List String} (h : (run q capacity events).keyNames.find? other = some names)
    (hmore : .clear ∉ more) : (run q capacity (events ++ more)).keyNames.find? other = some names := by
  induction more using List.reverseRecOn with
  | nil => rwa [List.append_nil]
  | append_singleton more e ih =>
    rw [← List.append_assoc, run_append_singleton]
    refine keyNames_step (ih fun hmem => hmore (List.mem_append_left _ hmem)) ?_
    rintro rfl
    exact hmore (List.mem_append_right _ (List.mem_singleton_self _))

section Run

variable {capacity : Nat} {events : List InstanceEvent} {t : DataType} {s : Sample}

theorem alone_of_accepted (h : ((run q capacity events).add q topicName t s).2 = true) :
    ∃ handle r, Tracked q (run q capacity events) ((run q capacity events).add q topicName t s).1
        ⟨topicName, handle⟩ t s r ∧
      (∀ w, r.writers.contains w = true ↔ w = s.writer ∨ ∃ old,
        (run q capacity events).records.find? ⟨topicName, handle⟩ = some old ∧
          old.writers.contains w = true) ∧
      ∀ id ≠ ⟨topicName, handle⟩, ((run q capacity events).add q topicName t s).1.records.find? id =
        (run q capacity events).records.find? id := by
  obtain ⟨handle, r, htracked⟩ := tracked_of_accepted h
  rcases (outcome_add q (run q capacity events) topicName t s).records with
    ⟨hrefused, -⟩ | ⟨handle', r', hadmits, -, hrecords⟩
  · cases h.symm.trans hrefused
  cases htracked.handle.symm.trans hadmits.handle
  have hrecord := htracked.record
  rw [hrecords, SortedMap.find?_insert, if_pos rfl] at hrecord
  cases hrecord
  refine ⟨handle, r, htracked, hadmits.writers, fun id hid => ?_⟩
  rw [hrecords, SortedMap.find?_insert, if_neg hid]

end Run

/-- After a sample no topic holds more instances than there is room for. If the sample was refused,
the topics look as before, but that its own may have got to know its keys, for good until a reset. If
it was accepted, the instance of its handle is there with its writer, and no other has changed. A
sample of a known instance is accepted though the topic be full. -/
theorem samples_all_or_nothing (q : Introspection) (capacity : Nat) (events : List InstanceEvent)
    (topicName : String) (t : DataType) (s : Sample) :
    let m := run q capacity events
    let result := m.add q topicName t s
    (∀ other, result.1.count other ≤ capacity) ∧
    (result.2 = false → ∀ other, result.1.count other = m.count other ∧
      result.1.active other = m.active other ∧ result.1.writersOf other = m.writersOf other) ∧
    (∀ other, result.1.keyNames.find? other = m.keyNames.find? other ∨
      other = topicName ∧ m.keyNames.find? other = none ∧
        result.1.keyNames.find? other = some (q.keyNames t)) ∧
    (∀ other names more, result.1.keyNames.find? other = some names → .clear ∉ more →
      (run q capacity (events ++ .sample topicName t s :: more)).keyNames.find? other =
        some names) ∧
    (result.2 = true → ∃ handle r, Tracked q m result.1 ⟨topicName, handle⟩ t s r ∧
      (∀ w, r.writers.contains w = true ↔ w = s.writer ∨
        ∃ old, m.records.find? ⟨topicName, handle⟩ = some old ∧ old.writers.contains w = true) ∧
      ∀ id ≠ ⟨topicName, handle⟩, result.1.records.find? id = m.records.find? id) ∧
    ∀ handle r, resolve q t s = .ok handle → m.records.find? ⟨topicName, handle⟩ = some r →
      result.2 = true := by
  intro m result
  have hnext : run q capacity (events ++ [.sample topicName t s]) = result.1 :=
    run_append_singleton events _
  refine ⟨fun other => ?_, fun hrefused other => ?_, keyNames_add_cases q m topicName t s,
    fun other names more hnames hmore => ?_, alone_of_accepted, fun handle r => accepted_of_known⟩
  · have hfits := fits_run q capacity (events ++ [.sample topicName t s]) other
    rwa [capacity_run, hnext] at hfits
  · have hrecords : result.1.records = m.records := records_of_refused hrefused
    unfold count active writersOf onTopic
    rw [hrecords]
    exact ⟨rfl, rfl, rfl⟩
  · rw [← hnext] at hnames
    rw [List.append_cons]
    exact keyNames_run_append hnames hmore

/-- The only place is taken by the instance 7, which a second writer can still join. -/
theorem samples_all_or_nothing_full :
    let t := Fixture.keyedType "Planar"
    let sample := fun id seed => Fixture.keyedSample t id (Fixture.seededGuid seed)
    let events := [.sample "positions" t (sample 7 1)]
    let m := run .dynamic 1 events
    let joined := m.add .dynamic "positions" t (sample 7 2)
    let refused := m.add .dynamic "positions" t (sample 8 2)
    m.count "positions" = 1 ∧ joined.2 = true ∧ joined.1.count "positions" ≤ 1 ∧
      (∃ handle r, joined.1.records.find? ⟨"positions", handle⟩ = some r ∧
        r.writers.contains (Fixture.seededGuid 1) = true ∧
        r.writers.contains (Fixture.seededGuid 2) = true) ∧
      refused.2 = false ∧ refused.1.writersOf "positions" = [Fixture.seededGuid 1] := by
  intro t sample events m joined refused
  let seven : InstanceHandle := .ofKeyHolder [0, 0, 0, 7]
  have hhandle : resolve .dynamic t (sample 7 2) = .ok seven := by rfl
  have hknown : (m.records.find? ⟨"positions", seven⟩).map
      (·.writers.contains (Fixture.seededGuid 1)) = some true := by decide +kernel
  obtain ⟨old, hold, hwriter⟩ := Option.map_eq_some_iff.mp hknown
  have hrefused : refused.2 = false := by decide +kernel
  have hwriters : m.writersOf "positions" = [Fixture.seededGuid 1] := by decide +kernel
  obtain ⟨hfits, -, -, -, htracked, haccepts⟩ :=
    samples_all_or_nothing .dynamic 1 events "positions" t (sample 7 2)
  obtain ⟨-, hsame, -⟩ := samples_all_or_nothing .dynamic 1 events "positions" t (sample 8 2)
  have haccepted : joined.2 = true := haccepts seven old hhandle hold
  obtain ⟨handle, r, hr, hjoins, -⟩ := htracked haccepted
  have hseven : handle = seven := Except.ok.inj (hr.handle.symm.trans hhandle)
  subst hseven
  refine ⟨by decide +kernel, haccepted, hfits "positions", ⟨seven, r, hr.record, ?_, hr.writer⟩,
    hrefused, (hsame hrefused "positions").2.2.trans hwriters⟩
  exact (hjoins _).mpr (.inr ⟨old, hold, hwriter⟩)

end Instances

end BusScope
