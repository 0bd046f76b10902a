import BusScope.Proofs.Instances.Refusals

/-! Samples of types without keys. They never bring an instance to life, but one that carries the
handle of a known instance counts as a sample of it, whatever type the instance came from. -/

namespace BusScope

/-- No keys are to be had from the type, nor from any sample of it. -/
structure Introspection.Keyless (q : Introspection) (t : DataType) : Prop where
  type : t.isKeyed = false
  names : q.keyNames t = []
  samples : ∀ s, q.Unreadable t s

theorem keyless_dynamic_iff {t : DataType} :
    Introspection.dynamic.Keyless t ↔ t.isKeyed = false := by
  constructor
  · exact fun h => h.type
  · intro h
    have hfields : t.keyFields = [] := DataType.keyFields_eq_nil_iff.mpr h
    refine ⟨h, ?_, fun s keys hkeys => absurd hfields (Sample.keyJson_eq_ok hkeys).1⟩
    show t.keyFields.map (·.name) = []
    rw [hfields]
    rfl

namespace Instances

/-- The instance is as before but for the writer, who keeps it alive now if it is known at all. -/
def Joined (id : InstanceId) (w : Guid) (before after : Instances) : Prop :=
  ∀ other, after.records.find? other = (before.records.find? other).map fun r =>
    if other = id then { r with writers := r.writers.insert w () } else r

structure Gains (condition : Prop) (w : Guid) (old r : Instance) : Prop where
  keys : r.keys = old.keys
  writers : ∀ w', r.writers.contains w' = true ↔
    (condition ∧ w' = w) ∨ old.writers.contains w' = true

theorem gains_ite (condition : Prop) [Decidable condition] (w : Guid) (old : Instance) :
    Gains condition w old
      (if condition then { old with writers := old.writers.insert w () } else old) := by
  by_cases hc : condition
  · rw [if_pos hc]
    refine ⟨rfl, fun w' => SortedMap.contains_insert.trans ?_⟩
    simp [hc]
  · rw [if_neg hc]
    exact ⟨rfl, fun w' => by simp [hc]⟩

namespace Joined

variable {id other : InstanceId} {w : Guid} {before after : Instances} {old r : Instance}

theorem after_of_before (h : Joined id w before after)
    (hold : before.records.find? other = some old) :
    ∃ r, after.records.find? other = some r ∧ Gains (other = id) w old r := by
  refine ⟨_, ?_, gains_ite (other = id) w old⟩
  rw [h other, hold, Option.map_some]

theorem before_of_after (h : Joined id w before after)
    (hr : after.records.find? other = some r) :
    ∃ old, before.records.find? other = some old ∧ Gains (other = id) w old r := by
  rw [h other, Option.map_eq_some_iff] at hr
  obtain ⟨old, hold, rfl⟩ := hr
  exact ⟨old, hold, gains_ite (other = id) w old⟩

theorem known_iff (h : Joined id w before after) :
    (∃ r, after.records.find? other = some r) ↔ ∃ r, before.records.find? other = some r := by
  constructor
  · intro hknown
    obtain ⟨r, hr⟩ := hknown
    obtain ⟨old, hold, -⟩ := h.before_of_after hr
    exact ⟨old, hold⟩
  · intro hknown
    obtain ⟨old, hold⟩ := hknown
    obtain ⟨r, hr, -⟩ := h.after_of_before hold
    exact ⟨r, hr⟩

theorem count (h : Joined id w before after) (topicName : String) :
    after.count topicName = before.count topicName := by
  have hcount : (after.count topicName : ℕ∞) = before.count topicName := by
    rw [count_eq_encard, count_eq_encard]
    simp only [h.known_iff]
  exact_mod_cast hcount

theorem active (h : Joined id w before after)
    (halive : ∀ other r, before.records.find? other = some r → r.writers.isEmpty = false)
    (topicName : String) : after.active topicName = before.active topicName := by
  refine sortedDistinct_congr fun keys => ?_
  have hlisted : keys ∈ after.active topicName ↔ keys ∈ before.active topicName := by
    rw [mem_active, mem_active]
    constructor
    · intro hkeys
      -- A record that had no writers would come to be listed through the one that joins.
      obtain ⟨handle, r, hr, -, rfl⟩ := hkeys
      obtain ⟨old, hold, hgains⟩ := h.before_of_after hr
      exact ⟨handle, old, hold, halive _ old hold, hgains.keys.symm⟩
    · intro hkeys
      obtain ⟨handle, old, hold, hwriters, rfl⟩ := hkeys
      obtain ⟨r, hr, hgains⟩ := h.after_of_before hold
      obtain ⟨w', hw'⟩ := SortedMap.isEmpty_eq_false_iff.mp hwriters
      have hkept : r.writers.contains w' = true := (hgains.writers w').mpr (.inr hw')
      exact ⟨handle, r, hr, SortedMap.isEmpty_eq_false_iff.mpr ⟨w', hkept⟩, hgains.keys⟩
  simpa only [Instances.active, mem_sortedDistinct] using hlisted

theorem mem_writersOf (h : Joined id w before after) (topicName : String) (w' : Guid) :
    w' ∈ after.writersOf topicName ↔ w' ∈ before.writersOf topicName ∨
      (w' = w ∧ topicName = id.topicName ∧ ∃ r, before.records.find? id = some r) := by
  rw [Instances.mem_writersOf, Instances.mem_writersOf]
  constructor
  · intro hw
    obtain ⟨handle, r, hr, hmem⟩ := hw
    obtain ⟨old, hold, hgains⟩ := h.before_of_after hr
    rcases (hgains.writers w').mp hmem with ⟨rfl, rfl⟩ | hmem
    · exact .inr ⟨rfl, rfl, old, hold⟩
    · exact .inl ⟨handle, old, hold, hmem⟩
  · intro hw
    rcases hw with ⟨handle, old, hold, hmem⟩ | ⟨rfl, rfl, old, hold⟩
    · obtain ⟨r, hr, hgains⟩ := h.after_of_before hold
      exact ⟨handle, r, hr, (hgains.writers w').mpr (.inr hmem)⟩
    · obtain ⟨r, hr, hgains⟩ := h.after_of_before hold
      exact ⟨id.handle, r, hr, (hgains.writers w').mpr (.inl ⟨rfl, rfl⟩)⟩

end Joined

section Add

variable {q : Introspection} {m : Instances} {topicName : String} {handle : InstanceHandle}
  {t : DataType} {s : Sample}

theorem resolve_of_keyless (h : q.Keyless t) : resolve q t s = .ok s.handle := by
  unfold resolve
  rw [h.type, Bool.and_false]
  rfl

theorem joined_of_known {r : Instance} (hhandle : resolve q t s = .ok handle)
    (hr : m.records.find? ⟨topicName, handle⟩ = some r) (hkeys : r.keys ≠ "")
    (haccepted : (m.add q topicName t s).2 = true) :
    Joined ⟨topicName, handle⟩ s.writer m (m.add q topicName t s).1 := by
  have hne : ¬ r.keys.isEmpty = true := by simpa using hkeys
  rw [add_of_resolved hhandle] at haccepted ⊢
  split at haccepted
  · cases haccepted
  next hnames =>
  rw [if_neg hnames, hr]
  dsimp only
  rw [if_neg hne]
  intro other
  show (m.records.insert _ _).find? other = _
  rw [SortedMap.find?_insert]
  by_cases hid : other = ⟨topicName, handle⟩
  · rw [if_pos hid, hid, hr]
    simp
  · rw [if_neg hid]
    simp [hid]

theorem records_of_refused (h : (m.add q topicName t s).2 = false) :
    (m.add q topicName t s).1.records = m.records := by
  rcases (outcome_add q m topicName t s).records with ⟨-, hrecords⟩ | ⟨-, -, -, haccepted, -⟩
  · exact hrecords
  · cases h.symm.trans haccepted

theorem keyNamesOf_ne_nil_of_accepted (h : (m.add q topicName t s).2 = true) :
    (m.add q topicName t s).1.keyNamesOf topicName ≠ [] := by
  intro hnone
  cases hhandle : resolve q t s with
  | error fault =>
    rw [add_of_unresolved hhandle] at h
    cases h
  | ok handle =>
    have hnoted : (m.note topicName (q.keyNames t)).keyNamesOf topicName = [] := by
      rw [← hnone]
      exact congrArg (fun names => (names.find? topicName).getD []) (keyNames_add hhandle).symm
    rw [add_of_resolved hhandle, hnoted] at h
    cases h

theorem keyNames_add_cases (q : Introspection) (m : Instances) (topicName : String) (t : DataType)
    (s : Sample) (other : String) :
    (m.add q topicName t s).1.keyNames.find? other = m.keyNames.find? other ∨
      other = topicName ∧ m.keyNames.find? other = none ∧
        (m.add q topicName t s).1.keyNames.find? other = some (q.keyNames t) := by
  cases hhandle : resolve q t s with
  | error fault =>
    rw [add_of_unresolved hhandle]
    exact .inl rfl
  | ok handle =>
    rw [keyNames_add hhandle, SortedMap.find?_insertNew]
    split
    · next hother =>
      subst hother
      cases m.keyNames.find? other with
      | none => exact .inr ⟨rfl, rfl, rfl⟩
      | some names => exact .inl rfl
    · exact .inl rfl

theorem keyNamesOf_add_of_ne_nil {other : String} (h : m.keyNamesOf other ≠ []) :
    (m.add q topicName t s).1.keyNamesOf other = m.keyNamesOf other := by
  rcases keyNames_add_cases q m topicName t s other with hsame | ⟨-, hnone, -⟩
  · exact congrArg (·.getD []) hsame
  · exact absurd (congrArg (·.getD []) hnone) h

end Add

def Named (m : Instances) : Prop :=
  ∀ id r, m.records.find? id = some r → m.keyNamesOf id.topicName ≠ []

theorem Named.add {m : Instances} (h : Named m) (q : Introspection) (topicName : String)
    (t : DataType) (s : Sample) : Named (m.add q topicName t s).1 := by
  intro id r hr
  have hold : ∀ old, m.records.find? id = some old →
      (m.add q topicName t s).1.keyNamesOf id.topicName ≠ [] := by
    intro old hold
    have hnames := h id old hold
    rwa [keyNamesOf_add_of_ne_nil hnames]
  rcases (outcome_add q m topicName t s).records with
    ⟨-, hrecords⟩ | ⟨handle, new, -, haccepted, hrecords⟩
  · exact hold r (hrecords ▸ hr)
  · rw [hrecords, SortedMap.find?_insert] at hr
    split at hr
    · next hid =>
      subst hid
      exact keyNamesOf_ne_nil_of_accepted haccepted
    · exact hold r hr

theorem Named.depart {m : Instances} (h : Named m) (w : Guid) (topicName : String) :
    Named (m.depart w topicName) := by
  intro id r hr
  rw [find?_depart] at hr
  split at hr
  · obtain ⟨hleft, -⟩ := Option.filter_eq_some_iff.mp hr
    obtain ⟨old, hold, -⟩ := Option.map_eq_some_iff.mp hleft
    exact h id old hold
  · exact h id r hr

theorem named_run (q : Introspection) (capacity : Nat) (events : List InstanceEvent) :
    Named (run q capacity events) := by
  induction events using List.reverseRecOn with
  | nil =>
    intro id r hr
    cases hr
  | append_singleton events e ih =>
    rw [run_append_singleton]
    cases e with
    | sample topicName t s => exact ih.add q topicName t s
    | writer w topicName active =>
      cases active with
      | true => exact ih
      | false => exact ih.depart w topicName
    | clear =>
      intro id r hr
      cases hr

section Run

variable {q : Introspection} {capacity : Nat} {events : List InstanceEvent} {topicName : String}
  {t : DataType} {s : Sample}

/-- A known instance needs no room, and its topic has keys, whatever the type of the sample. -/
theorem accepted_of_known {handle : InstanceHandle} {r : Instance} (h : resolve q t s = .ok handle)
    (hr : (run q capacity events).records.find? ⟨topicName, handle⟩ = some r) :
    ((run q capacity events).add q topicName t s).2 = true := by
  have hnamed := named_run q capacity events ⟨topicName, handle⟩ r hr
  by_contra haccepted
  rw [Bool.not_eq_true, add_refused_iff keys_ne_of_find?_run] at haccepted
  rcases haccepted with ⟨fault, hfault⟩ | hnone | ⟨handle', h', hnew, -⟩
  · cases h.symm.trans hfault
  · unfold keyNamesOf at hnamed
    cases hnames : (run q capacity events).keyNames.find? topicName with
    | none =>
      rw [hnames] at hnamed
      exact hnamed rfl
    | some names =>
      rw [hnames] at hnamed hnone
      exact hnamed hnone
  · cases h.symm.trans h'
    cases hr.symm.trans hnew

theorem keyless_accepted_iff (ht : q.Keyless t) :
    ((run q capacity events).add q topicName t s).2 = true ↔
      ∃ r, (run q capacity events).records.find? ⟨topicName, s.handle⟩ = some r := by
  have hhandle : resolve q t s = .ok s.handle := resolve_of_keyless ht
  constructor
  · intro haccepted
    by_contra hunknown
    have hnew := Option.eq_none_iff_forall_ne_some.mpr fun r hr => hunknown ⟨r, hr⟩
    have hrefused := (add_refused_iff keys_ne_of_find?_run).mpr
      (.inr (.inr ⟨s.handle, hhandle, hnew, .inr (ht.samples s)⟩))
    cases haccepted.symm.trans hrefused
  · intro hknown
    obtain ⟨r, hr⟩ := hknown
    exact accepted_of_known hhandle hr

theorem joined_of_keyless (ht : q.Keyless t) :
    Joined ⟨topicName, s.handle⟩ s.writer (run q capacity events)
      ((run q capacity events).add q topicName t s).1 := by
  cases haccepted : ((run q capacity events).add q topicName t s).2 with
  | true =>
    obtain ⟨r, hr⟩ := (keyless_accepted_iff ht).mp haccepted
    exact joined_of_known (resolve_of_keyless ht) hr (keys_ne_of_find?_run _ r hr) haccepted
  | false =>
    have hunknown := mt (keyless_accepted_iff ht).mpr (by rw [haccepted]; simp)
    intro other
    rw [records_of_refused haccepted]
    cases hr : (run q capacity events).records.find? other with
    | none => rfl
    | some r =>
      have hid : other ≠ ⟨topicName, s.handle⟩ := fun h => hunknown ⟨r, h ▸ hr⟩
      rw [Option.map_some, if_neg hid]

theorem Opens.not_keyless {id : InstanceId} (h : Opens q capacity events id t s) :
    ¬ q.Keyless t := by
  intro ht
  obtain ⟨r, hr⟩ := find?_run_iff.mpr h.alive
  have hrecord := justified_of_find?_run hr
  exact hrecord.keys (ht.samples s r.keys (hrecord.origin t s h))

theorem keyless_refused_of_first (ht : q.Keyless t)
    (hfirst : ∀ first, FirstType q topicName events first → q.Keyless first) :
    ((run q capacity events).add q topicName t s).2 = false := by
  rw [add_refused_iff keys_ne_of_find?_run]
  refine .inr (.inl ?_)
  have hnotes := notes_run q capacity topicName events
  cases hnoted : (run q capacity events).keyNames.find? topicName with
  | none => exact ht.names
  | some names =>
    rw [hnoted] at hnotes
    obtain ⟨⟨first, h⟩, hall⟩ := hnotes
    exact (hall first h).symm.trans (hfirst first h).names

end Run

/-- A sample of a type without keys brings no instance to life, and where the topic was first seen
with such a type it is refused. Otherwise it counts for the instance that has its handle, if there is
one, which is then kept alive by a writer that never named it. Going by the types themselves, those
without key members are meant. -/
theorem keyless_samples_only_join (q : Introspection) (capacity : Nat)
    (events : List InstanceEvent) (topicName : String) (t : DataType) (s : Sample)
    (ht : q.Keyless t) :
    let m := run q capacity events
    let result := m.add q topicName t s
    (result.2 = true ↔ ∃ r, m.records.find? ⟨topicName, s.handle⟩ = some r) ∧
    (result.2 = false → result.1.records = m.records) ∧
    Joined ⟨topicName, s.handle⟩ s.writer m result.1 ∧
    (∀ other, result.1.count other = m.count other ∧ result.1.active other = m.active other ∧
      ∀ w, w ∈ result.1.writersOf other ↔
        w ∈ m.writersOf other ∨ (w = s.writer ∧ other = topicName ∧ result.2 = true)) ∧
    (∀ id type first, Opens q capacity events id type first → ¬ q.Keyless type) ∧
    ((∀ first, FirstType q topicName events first → q.Keyless first) → result.2 = false) ∧
    ∀ type, Introspection.dynamic.Keyless type ↔ type.isKeyed = false := by
  intro m result
  have hjoined : Joined ⟨topicName, s.handle⟩ s.writer m result.1 := joined_of_keyless ht
  have haccepted : result.2 = true ↔ ∃ r, m.records.find? ⟨topicName, s.handle⟩ = some r :=
    keyless_accepted_iff ht
  have halive : ∀ id r, m.records.find? id = some r → r.writers.isEmpty = false :=
    fun id r hr => (justified_of_find?_run hr).writers_ne_empty
  refine ⟨haccepted, records_of_refused, hjoined, fun other => ⟨hjoined.count other,
    hjoined.active halive other, fun w => ?_⟩, fun id type first => Opens.not_keyless,
    keyless_refused_of_first ht, fun type => keyless_dynamic_iff⟩
  rw [hjoined.mem_writersOf, haccepted]

def zeroEvents : List InstanceEvent :=
  let keyed := Fixture.keyedType "Position"
  [.sample "positions" keyed (Fixture.keyedSample keyed 0 (Fixture.seededGuid 1))]

def keylessSample : Sample := Fixture.sample (Fixture.unkeyedType "Note") [] (Fixture.seededGuid 2)

theorem keyless_samples_only_join_note :
    let t := Fixture.unkeyedType "Note"
    let m := run .dynamic 10 zeroEvents
    Introspection.dynamic.Keyless t ∧ (m.add .dynamic "positions" t keylessSample).2 = true ∧
      ∀ other, (m.add .dynamic "positions" t keylessSample).1.active other = m.active other := by
  intro t m
  have ht : Introspection.dynamic.Keyless t := keyless_dynamic_iff.mpr (by decide)
  have hknown : ∃ r, m.records.find? ⟨"positions", keylessSample.handle⟩ = some r :=
    Option.isSome_iff_exists.mp (by decide +kernel)
  obtain ⟨haccepted, -, -, hviews, -⟩ :=
    keyless_samples_only_join .dynamic 10 zeroEvents "positions" t keylessSample ht
  exact ⟨ht, haccepted.mpr hknown, fun other => (hviews other).2.1⟩

/-- A writer without keys keeps the instance 0 alive. -/
theorem keyless_sample_joins_instance :
    let t := Fixture.unkeyedType "Note"
    let m := run .dynamic 10 zeroEvents
    let result := m.add .dynamic "positions" t keylessSample
    t.isKeyed = false ∧ result.2 = true ∧ m.writersOf "positions" = [Fixture.seededGuid 1] ∧
      result.1.writersOf "positions" = [Fixture.seededGuid 1, Fixture.seededGuid 2] := by
  refine ⟨by decide, ?_, ?_, ?_⟩
  · decide +kernel
  · decide +kernel
  · decide +kernel

end Instances

end BusScope
