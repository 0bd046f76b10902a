import BusScope.Fixture
import BusScope.Proofs.Instances.Isolation

/-! The instances at the end of any history are those that the history says some writer keeps
alive. The invariant looks at one record at a time: its writers are the supporters, and its keys
are those of the sample that brought it to life. -/

namespace BusScope

namespace Instances

variable {q : Introspection} {capacity : Nat} {events : List InstanceEvent} {id : InstanceId}

structure Justified (q : Introspection) (capacity : Nat) (events : List InstanceEvent)
    (id : InstanceId) (r : Instance) : Prop where
  writers : ∀ w, r.writers.contains w = true ↔ Supports q capacity events id w
  alive : ∃ w, Supports q capacity events id w
  keys : r.keys ≠ ""
  opened : ∃ type s, Opens q capacity events id type s
  origin : ∀ type s, Opens q capacity events id type s → q.keyJson type s = .ok r.keys

/-- A record is there with good reason, and its absence has one too. -/
def Tracks (q : Introspection) (capacity : Nat) (events : List InstanceEvent) (id : InstanceId) :
    Option Instance → Prop
  | none => ∀ w, ¬ Supports q capacity events id w
  | some r => Justified q capacity events id r

theorem Justified.next {e : InstanceEvent} {old r : Instance}
    (h : Justified q capacity events id old) (hkeys : r.keys = old.keys)
    (hwriters : ∀ w, r.writers.contains w = true ↔ Supports q capacity (events ++ [e]) id w)
    (halive : ∃ w, Supports q capacity (events ++ [e]) id w) :
    Justified q capacity (events ++ [e]) id r where
  writers := hwriters
  alive := halive
  keys := hkeys ▸ h.keys
  opened := by
    obtain ⟨type, s, hopen⟩ := h.opened
    exact ⟨type, s, opens_append_singleton.mpr (.inr ⟨hopen, halive⟩)⟩
  origin type s hopen := by
    obtain ⟨w, hw⟩ := h.alive
    rcases opens_append_singleton.mp hopen with ⟨-, -, -, hnone⟩ | ⟨hold, -⟩
    · exact absurd hw (hnone w)
    · rw [hkeys]
      exact h.origin type s hold

theorem Tracks.of_quiet {e : InstanceEvent} {x : Option Instance}
    (h : Tracks q capacity events id x)
    (hsame : ∀ w, Supports q capacity (events ++ [e]) id w ↔ Supports q capacity events id w) :
    Tracks q capacity (events ++ [e]) id x := by
  cases x with
  | none => exact fun w hw => h w ((hsame w).mp hw)
  | some r =>
    obtain ⟨w, hw⟩ := h.alive
    exact h.next rfl (fun w => (h.writers w).trans (hsame w).symm) ⟨w, (hsame w).mpr hw⟩

theorem supports_of_quiet {e : InstanceEvent}
    (hstart : ∀ w, ¬ Starts q (run q capacity events) e id w) (hend : ∀ w, ¬ Ends e id w) (w : Guid) :
    Supports q capacity (events ++ [e]) id w ↔ Supports q capacity events id w := by
  rw [supports_append_singleton]
  constructor
  · intro hs
    rcases hs with h | ⟨h, -⟩
    · exact absurd h (hstart w)
    · exact h
  · exact fun h => .inr ⟨h, hend w⟩

theorem not_ends_sample {topicName : String} {type : DataType} {s : Sample} (w : Guid) :
    ¬ Ends (.sample topicName type s) id w := by
  intro h
  rcases h with h | h <;> cases h

theorem not_starts_writer {m : Instances} {writer : Guid} {topicName : String} {active : Bool}
    (w : Guid) : ¬ Starts q m (.writer writer topicName active) id w := by
  intro hs
  obtain ⟨type, s, h, -⟩ := hs
  cases h

theorem not_starts_clear {m : Instances} (w : Guid) : ¬ Starts q m .clear id w := by
  intro hs
  obtain ⟨type, s, h, -⟩ := hs
  cases h

theorem Tracks.supports_iff {x : Option Instance} (h : Tracks q capacity events id x) (w : Guid) :
    Supports q capacity events id w ↔ ∃ r ∈ x, r.writers.contains w = true := by
  cases x with
  | none => exact ⟨fun hw => absurd hw (h w), fun ⟨r, hr, _⟩ => by cases hr⟩
  | some r =>
    constructor
    · exact fun hw => ⟨r, rfl, (h.writers w).mpr hw⟩
    · intro hr
      obtain ⟨r', hr', hw⟩ := hr
      cases hr'
      exact (h.writers w).mp hw

theorem Justified.first {type : DataType} {s : Sample} {r : Instance}
    (hnone : ∀ w, ¬ Supports q capacity events id w)
    (haccepted : ((run q capacity events).add q id.topicName type s).2 = true)
    (hr : Admits q none id.handle type s r)
    (hwriters : ∀ w, r.writers.contains w = true ↔
      Supports q capacity (events ++ [.sample id.topicName type s]) id w) :
    Justified q capacity (events ++ [.sample id.topicName type s]) id r where
  writers := hwriters
  alive := ⟨s.writer, (hwriters s.writer).mp ((hr.writers s.writer).mpr (.inl rfl))⟩
  keys := hr.keys
  opened := ⟨type, s, opens_append_singleton.mpr (.inl ⟨rfl, haccepted, hr.handle, hnone⟩)⟩
  origin type' s' hopen := by
    rcases opens_append_singleton.mp hopen with ⟨he, -⟩ | ⟨hold, -⟩
    · cases he
      rcases hr.origin with ⟨old, hold, -⟩ | ⟨-, hkeys⟩
      · cases hold
      · exact hkeys
    · obtain ⟨w, hw⟩ := hold.alive
      exact absurd hw (hnone w)

theorem Tracks.accepted {type : DataType} {s : Sample} {known : Option Instance} {r : Instance}
    (h : Tracks q capacity events id known)
    (haccepted : ((run q capacity events).add q id.topicName type s).2 = true)
    (hr : Admits q known id.handle type s r) :
    Justified q capacity (events ++ [.sample id.topicName type s]) id r := by
  have hwriters : ∀ w, r.writers.contains w = true ↔
      Supports q capacity (events ++ [.sample id.topicName type s]) id w := by
    intro w
    rw [hr.writers w, ← h.supports_iff w, supports_append_singleton]
    refine or_congr ⟨?_, ?_⟩ ⟨fun hw => ⟨hw, not_ends_sample w⟩, And.left⟩
    · intro hw
      subst hw
      exact ⟨type, s, rfl, haccepted, hr.handle, rfl⟩
    · intro hstart
      obtain ⟨type', s', he, -, -, rfl⟩ := hstart
      cases he
      rfl
  cases known with
  | none => exact Justified.first h haccepted hr hwriters
  | some old =>
    -- A known record has keys, so that those of the sample are not asked for.
    have hkeys : r.keys = old.keys := by
      rcases hr.origin with ⟨old', hold, hk⟩ | ⟨hempty, -⟩
      · cases hold
        exact hk.symm
      · exact absurd (hempty old rfl) h.keys
    have halive := (hwriters s.writer).mp ((hr.writers s.writer).mpr (.inl rfl))
    exact h.next hkeys hwriters ⟨s.writer, halive⟩

theorem Tracks.sample {topicName : String} {type : DataType} {s : Sample}
    (h : Tracks q capacity events id ((run q capacity events).records.find? id)) :
    Tracks q capacity (events ++ [.sample topicName type s]) id
      (((run q capacity events).add q topicName type s).1.records.find? id) := by
  rcases (outcome_add q (run q capacity events) topicName type s).records with
    ⟨hrefused, hrecords⟩ | ⟨handle, r, hr, haccepted, hrecords⟩
  · rw [hrecords]
    refine h.of_quiet (supports_of_quiet ?_ not_ends_sample)
    intro w hstart
    obtain ⟨type', s', he, haccepted, -⟩ := hstart
    cases he
    rw [hrefused] at haccepted
    cases haccepted
  · rw [hrecords, SortedMap.find?_insert]
    by_cases hid : id = ⟨topicName, handle⟩
    · subst hid
      rw [if_pos rfl]
      exact h.accepted haccepted hr
    · rw [if_neg hid]
      refine h.of_quiet (supports_of_quiet ?_ not_ends_sample)
      intro w hstart
      obtain ⟨type', s', he, -, hhandle, -⟩ := hstart
      cases he
      cases hr.handle.symm.trans hhandle
      exact hid rfl

theorem Tracks.departed {writer : Guid} {x : Option Instance} (h : Tracks q capacity events id x) :
    Tracks q capacity (events ++ [.writer writer id.topicName false]) id
      ((x.map fun r => { r with writers := r.writers.erase writer }).filter
        fun r => !r.writers.isEmpty) := by
  have hsupports : ∀ w, Supports q capacity (events ++ [.writer writer id.topicName false]) id w ↔
      w ≠ writer ∧ Supports q capacity events id w := by
    intro w
    rw [supports_append_singleton]
    constructor
    · intro hs
      rcases hs with hstart | ⟨hw, hend⟩
      · exact absurd hstart (not_starts_writer w)
      · exact ⟨fun he => hend (.inr (he ▸ rfl)), hw⟩
    · intro hs
      refine .inr ⟨hs.2, fun hend => ?_⟩
      rcases hend with he | he
      · cases he
      · cases he
        exact hs.1 rfl
  cases x with
  | none => exact fun w hw => h w ((hsupports w).mp hw).2
  | some r =>
    have hleft : ∀ w, (r.writers.erase writer).contains w = true ↔
        Supports q capacity (events ++ [.writer writer id.topicName false]) id w := by
      intro w
      rw [SortedMap.contains_erase, hsupports, h.writers]
    rw [Option.map_some, Option.filter_some]
    by_cases hempty : (r.writers.erase writer).isEmpty = true
    · rw [if_neg (by simp [hempty])]
      intro w hw
      have hmem := (hleft w).mpr hw
      rw [SortedMap.contains, SortedMap.isEmpty_iff.mp hempty w] at hmem
      cases hmem
    · rw [if_pos (by simpa using hempty)]
      obtain ⟨w, hw⟩ := SortedMap.isEmpty_eq_false_iff.mp (Bool.eq_false_iff.mpr hempty)
      exact h.next rfl hleft ⟨w, (hleft w).mp hw⟩

theorem Tracks.writer {writer : Guid} {topicName : String} {active : Bool}
    (h : Tracks q capacity events id ((run q capacity events).records.find? id)) :
    Tracks q capacity (events ++ [.writer writer topicName active]) id
      (((run q capacity events).writerChanged writer topicName active).records.find? id) := by
  unfold writerChanged
  by_cases ha : active = true
  · rw [if_pos ha]
    refine h.of_quiet (supports_of_quiet not_starts_writer ?_)
    intro w hend
    rcases hend with he | he
    · cases he
    · cases he
      cases ha
  rw [if_neg ha, find?_depart]
  by_cases ht : id.topicName = topicName
  · subst ht
    rw [if_pos rfl, Bool.eq_false_iff.mpr ha]
    exact h.departed
  · rw [if_neg ht]
    refine h.of_quiet (supports_of_quiet not_starts_writer ?_)
    intro w hend
    rcases hend with he | he
    · cases he
    · cases he
      exact ht rfl

theorem tracks_run (q : Introspection) (capacity : Nat) (events : List InstanceEvent)
    (id : InstanceId) : Tracks q capacity events id ((run q capacity events).records.find? id) := by
  -- From the back: only the last event can start a support anew or end one.
  induction events using List.reverseRecOn with
  | nil => exact fun w => not_supports_nil
  | append_singleton events e ih =>
    rw [run_append_singleton]
    cases e with
    | sample topicName type s => exact ih.sample
    | writer w topicName active => exact ih.writer
    | clear =>
      intro w hw
      rcases supports_append_singleton.mp hw with h | ⟨-, h⟩
      · exact not_starts_clear w h
      · exact h (.inl rfl)

theorem justified_of_find?_run {r : Instance}
    (h : (run q capacity events).records.find? id = some r) : Justified q capacity events id r := by
  have htracks := tracks_run q capacity events id
  rwa [h] at htracks

theorem Justified.writers_ne_empty {r : Instance} (h : Justified q capacity events id r) :
    r.writers.isEmpty = false := by
  obtain ⟨w, hw⟩ := h.alive
  exact SortedMap.isEmpty_eq_false_iff.mpr ⟨w, (h.writers w).mpr hw⟩

theorem find?_run_iff : (∃ r, (run q capacity events).records.find? id = some r) ↔
    ∃ w, Supports q capacity events id w := by
  constructor
  · intro hrecord
    obtain ⟨r, hr⟩ := hrecord
    exact (justified_of_find?_run hr).alive
  · intro hsupport
    obtain ⟨w, hw⟩ := hsupport
    obtain ⟨r, hr, -⟩ := ((tracks_run q capacity events id).supports_iff w).mp hw
    exact ⟨r, hr⟩

theorem mem_active_run {topicName keys : String} :
    keys ∈ (run q capacity events).active topicName ↔
      ∃ handle type s, Opens q capacity events ⟨topicName, handle⟩ type s ∧
        q.keyJson type s = .ok keys := by
  rw [mem_active]
  constructor
  · intro hactive
    obtain ⟨handle, r, hr, -, rfl⟩ := hactive
    have hrecord := justified_of_find?_run hr
    obtain ⟨type, s, hopen⟩ := hrecord.opened
    exact ⟨handle, type, s, hopen, hrecord.origin type s hopen⟩
  · intro hopened
    obtain ⟨handle, type, s, hopen, hkeys⟩ := hopened
    obtain ⟨r, hr⟩ := find?_run_iff.mpr hopen.alive
    have hrecord := justified_of_find?_run hr
    have heq : r.keys = keys := Except.ok.inj ((hrecord.origin type s hopen).symm.trans hkeys)
    exact ⟨handle, r, hr, hrecord.writers_ne_empty, heq⟩

/-- The instances at the end of a history, by the history alone. No record is without writers or
without keys, and what goes on in other topics does not matter. -/
theorem instances_follow_history (q : Introspection) (capacity : Nat)
    (events : List InstanceEvent) :
    (∀ topicName handle,
      (∃ r, (run q capacity events).records.find? ⟨topicName, handle⟩ = some r) ↔
        ∃ w, Supports q capacity events ⟨topicName, handle⟩ w) ∧
    (∀ id r, (run q capacity events).records.find? id = some r →
      (∀ w, r.writers.contains w = true ↔ Supports q capacity events id w) ∧
        r.writers.isEmpty = false ∧ r.keys ≠ "") ∧
    ∀ topicName,
      (∀ w, w ∈ (run q capacity events).writersOf topicName ↔
        ∃ handle, Supports q capacity events ⟨topicName, handle⟩ w) ∧
      ((run q capacity events).count topicName : ℕ∞) =
        {handle | ∃ w, Supports q capacity events ⟨topicName, handle⟩ w}.encard ∧
      (∀ keys, keys ∈ (run q capacity events).active topicName ↔
        ∃ handle type s, Opens q capacity events ⟨topicName, handle⟩ type s ∧
          q.keyJson type s = .ok keys) ∧
      ∀ handle, (run q capacity events).records.find? ⟨topicName, handle⟩ =
        (run q capacity (events.filter (·.concerns topicName))).records.find?
          ⟨topicName, handle⟩ := by
  refine ⟨fun topicName handle => find?_run_iff, fun id r hr => ?_, fun topicName => ?_⟩
  · have hrecord := justified_of_find?_run hr
    exact ⟨hrecord.writers, hrecord.writers_ne_empty, hrecord.keys⟩
  refine ⟨fun w => ?_, ?_, fun keys => mem_active_run, fun handle => ?_⟩
  · rw [mem_writersOf]
    exact exists_congr fun handle =>
      ((tracks_run q capacity events ⟨topicName, handle⟩).supports_iff w).symm
  · rw [count_eq_encard]
    simp only [find?_run_iff]
  · exact (agreeOn_run_filter q capacity events topicName).records handle

/-- Of the two instances of a writer that departs, the one with another writer is left. -/
theorem instances_follow_history_handover :
    let sample := fun id seed => InstanceEvent.sample "positions" (Fixture.keyedType "Planar")
      (Fixture.keyedSample (Fixture.keyedType "Planar") id (Fixture.seededGuid seed))
    let events := [sample 7 1, sample 7 2, sample 8 1,
      .writer (Fixture.seededGuid 1) "positions" false]
    let seven : InstanceId := ⟨"positions", .ofKeyHolder [0, 0, 0, 7]⟩
    let eight : InstanceId := ⟨"positions", .ofKeyHolder [0, 0, 0, 8]⟩
    (run .dynamic 2 events).count "positions" = 1 ∧
      (∀ w, Supports .dynamic 2 events seven w ↔ w = Fixture.seededGuid 2) ∧
      ∀ w, ¬ Supports .dynamic 2 events eight w := by
  intro sample events seven eight
  obtain ⟨hknown, hrecords, -⟩ := instances_follow_history .dynamic 2 events
  have hseven : ((run .dynamic 2 events).records.find? seven).map (·.writers.keys) =
      some [Fixture.seededGuid 2] := by decide +kernel
  have height : (run .dynamic 2 events).records.find? eight = none :=
    Option.isNone_iff_eq_none.mp (by decide +kernel)
  obtain ⟨r, hr, hkeys⟩ := Option.map_eq_some_iff.mp hseven
  refine ⟨by decide +kernel, fun w => ?_, fun w hw => ?_⟩
  · rw [← (hrecords seven r hr).1 w, SortedMap.contains_iff, ← SortedMap.mem_keys, hkeys,
      List.mem_singleton]
  · obtain ⟨r', hr'⟩ := (hknown "positions" eight.handle).mpr ⟨w, hw⟩
    cases height.symm.trans hr'

end Instances

end BusScope
