import BusScope.Fixture
import BusScope.Proofs.Instances.Liveness

/-! Which samples are refused. Whether a topic has keys is asked of the first type seen on it since
the last reset, and not of the type of the sample; all else that speaks against a sample is found in
the sample itself or in the records of the topic. -/

namespace BusScope

def Introspection.Unreadable (q : Introspection) (t : DataType) (s : Sample) : Prop :=
  ∀ keys, q.keyJson t s = .ok keys → keys = ""

theorem Json.compact_object_ne_empty (members : List (String × Json)) :
    (Json.object members).compact ≠ "" := by
  rw [Json.compact]
  intro h
  have hlength := congrArg String.length h
  simp at hlength

theorem keyRecord_eq_ok {t : DataType} {v : Value} {record : DataType × Value}
    (h : keyRecord t v = .ok record) :
    t.keyFields ≠ [] ∧
      ∃ ms, record = (.struct (t.name ++ "_KeysOnly") t.keyFields, .ofMembers ms) := by
  unfold keyRecord at h
  split at h
  · cases honly : t.keyOnly? with
    | none => rw [honly] at h; cases h
    | some keys =>
      rw [honly] at h
      have hkeys : t.keyFields ≠ [] ∧ keys = .struct (t.name ++ "_KeysOnly") t.keyFields := by
        rw [DataType.keyOnly?, Option.ite_none_left_eq_some] at honly
        exact ⟨by simpa using honly.1, (Option.some.inj honly.2).symm⟩
      cases hms : keyMembers t.name v t.keyFields with
      | error fault => rw [hms] at h; cases h
      | ok ms =>
        rw [hms] at h
        cases h
        exact ⟨hkeys.1, ms, by rw [hkeys.2]⟩
  · cases h

theorem Sample.keyJson_eq_ok {s : Sample} {t : DataType} {keys : String}
    (h : s.keyJson t = .ok keys) : t.keyFields ≠ [] ∧ keys ≠ "" := by
  unfold Sample.keyJson at h
  cases hv : s.value t with
  | error fault => rw [hv] at h; cases h
  | ok v =>
    rw [hv] at h
    dsimp only at h
    cases hrecord : keyRecord t v with
    | error fault => rw [hrecord] at h; cases h
    | ok record =>
      obtain ⟨hfields, ms, rfl⟩ := keyRecord_eq_ok hrecord
      rw [hrecord] at h
      cases h
      exact ⟨hfields, Json.compact_object_ne_empty _⟩

theorem unreadable_dynamic_iff {t : DataType} {s : Sample} :
    Introspection.dynamic.Unreadable t s ↔ ∃ fault, s.keyJson t = .error fault := by
  constructor
  · intro h
    cases hj : s.keyJson t with
    | error fault => exact ⟨fault, rfl⟩
    | ok keys => exact absurd (h keys hj) (Sample.keyJson_eq_ok hj).2
  · intro h keys hkeys
    obtain ⟨fault, hfault⟩ := h
    cases hfault.symm.trans hkeys

namespace Instances

/-- What is known once a sample of the topic has a handle, whether or not it is then refused. -/
def note (m : Instances) (topicName : String) (names : List String) : Instances :=
  { m with keyNames := m.keyNames.insertNew topicName names }

section Add

variable {q : Introspection} {m : Instances} {topicName : String} {handle : InstanceHandle}
  {t : DataType} {s : Sample}

theorem keyNamesOf_note (names : List String) :
    (m.note topicName names).keyNamesOf topicName = (m.keyNames.find? topicName).getD names := by
  unfold keyNamesOf note
  dsimp only
  rw [SortedMap.find?_insertNew, if_pos rfl]
  rfl

theorem add_of_unresolved {fault : InspectionFault} (h : resolve q t s = .error fault) :
    m.add q topicName t s = (m, false) := by
  unfold add
  rw [h]

theorem add_of_resolved (h : resolve q t s = .ok handle) : m.add q topicName t s =
    if ((m.note topicName (q.keyNames t)).keyNamesOf topicName).isEmpty then
      (m.note topicName (q.keyNames t), false)
    else match m.records.find? ⟨topicName, handle⟩ with
      | some r =>
        if r.keys.isEmpty then (m.note topicName (q.keyNames t)).enroll q ⟨topicName, handle⟩ t s
        else ((m.note topicName (q.keyNames t)).put ⟨topicName, handle⟩
          { r with writers := r.writers.insert s.writer () }, true)
      | none =>
        if m.capacity ≤ m.count topicName then (m.note topicName (q.keyNames t), false)
        else (m.note topicName (q.keyNames t)).enroll q ⟨topicName, handle⟩ t s := by
  unfold add
  rw [h]
  rfl

theorem keyNames_enroll {id : InstanceId} : (m.enroll q id t s).1.keyNames = m.keyNames := by
  unfold enroll
  split
  · rfl
  split
  · rfl
  split
  · rfl
  split <;> rfl

theorem keyNames_add (h : resolve q t s = .ok handle) :
    (m.add q topicName t s).1.keyNames = m.keyNames.insertNew topicName (q.keyNames t) := by
  rw [add_of_resolved h]
  split
  · rfl
  split
  · split
    · exact keyNames_enroll
    · rfl
  · split
    · rfl
    · exact keyNames_enroll

theorem enroll_refused_iff {id : InstanceId} (hnew : m.records.find? id = none)
    (hroom : ¬ m.capacity ≤ m.count id.topicName) :
    (m.enroll q id t s).2 = false ↔ q.Unreadable t s := by
  unfold enroll Introspection.Unreadable
  cases hj : q.keyJson t s with
  | error fault => simp
  | ok keys =>
    dsimp only
    by_cases hk : keys = ""
    · simp [hk]
    · simp [hk, hnew, hroom]

/-- A sample is refused without a handle, without keys of its topic, and, if its instance is new, for
want of room or of keys that can be read. -/
theorem add_refused_iff (hkeys : ∀ id r, m.records.find? id = some r → r.keys ≠ "") :
    (m.add q topicName t s).2 = false ↔
      (∃ fault, resolve q t s = .error fault) ∨
      (m.keyNames.find? topicName).getD (q.keyNames t) = [] ∨
      ∃ handle, resolve q t s = .ok handle ∧ m.records.find? ⟨topicName, handle⟩ = none ∧
        (m.capacity ≤ m.count topicName ∨ q.Unreadable t s) := by
  cases hhandle : resolve q t s with
  | error fault => simp [add_of_unresolved hhandle]
  | ok handle =>
    rw [add_of_resolved hhandle, keyNamesOf_note]
    by_cases hnames : (m.keyNames.find? topicName).getD (q.keyNames t) = []
    · simp [hnames]
    rw [if_neg (by simpa using hnames)]
    cases hfind : m.records.find? ⟨topicName, handle⟩ with
    | some r =>
      have hne : r.keys ≠ "" := hkeys _ r hfind
      simp [hnames, hne, hfind]
    | none =>
      by_cases hfull : m.capacity ≤ m.count topicName
      · simp [hnames, hfind, hfull]
      · have henroll : ((m.note topicName (q.keyNames t)).enroll q ⟨topicName, handle⟩ t s).2 =
            false ↔ q.Unreadable t s := enroll_refused_iff hfind hfull
        simp [hnames, hfind, hfull, henroll]

end Add

def Shows (q : Introspection) (topicName : String) (e : InstanceEvent) (t : DataType) : Prop :=
  ∃ s handle, e = .sample topicName t s ∧ resolve q t s = .ok handle

def Seen (q : Introspection) (topicName : String) (events : List InstanceEvent) : Prop :=
  Lasts (fun _ e => ∃ t, Shows q topicName e t) (· = .clear) events

/-- The type was shown on the topic after the last reset, and no other before it. -/
def FirstType (q : Introspection) (topicName : String) (events : List InstanceEvent)
    (t : DataType) : Prop :=
  Lasts (fun before e => Shows q topicName e t ∧ ¬ Seen q topicName before) (· = .clear) events

/-- What is noted of a topic: nothing as long as no type has been shown, and then the keys of the
first one. -/
def Notes (q : Introspection) (topicName : String) (events : List InstanceEvent) :
    Option (List String) → Prop
  | none => ¬ Seen q topicName events
  | some names => (∃ t, FirstType q topicName events t) ∧
      ∀ t, FirstType q topicName events t → q.keyNames t = names

section History

variable {q : Introspection} {capacity : Nat} {topicName : String} {events : List InstanceEvent}
  {t : DataType} {e : InstanceEvent}

theorem seen_append_singleton : Seen q topicName (events ++ [e]) ↔
    (∃ t, Shows q topicName e t) ∨ (Seen q topicName events ∧ e ≠ .clear) :=
  lasts_append_singleton

theorem firstType_append_singleton : FirstType q topicName (events ++ [e]) t ↔
    (Shows q topicName e t ∧ ¬ Seen q topicName events) ∨
      (FirstType q topicName events t ∧ e ≠ .clear) :=
  lasts_append_singleton

theorem FirstType.seen (h : FirstType q topicName events t) : Seen q topicName events := by
  obtain ⟨before, e, after, hevents, ⟨hshows, -⟩, hlater⟩ := h
  exact ⟨before, e, after, hevents, ⟨t, hshows⟩, hlater⟩

theorem Notes.of_quiet {names : Option (List String)} (h : Notes q topicName events names)
    (hshows : ∀ t, ¬ Shows q topicName e t) (hclear : e ≠ .clear) :
    Notes q topicName (events ++ [e]) names := by
  have hfirst : ∀ t, FirstType q topicName (events ++ [e]) t ↔ FirstType q topicName events t := by
    intro t
    rw [firstType_append_singleton]
    simp [hshows t, hclear]
  cases names with
  | none =>
    intro hseen
    rcases seen_append_singleton.mp hseen with ⟨t, ht⟩ | ⟨hseen, -⟩
    · exact hshows t ht
    · exact h hseen
  | some names =>
    obtain ⟨⟨t, ht⟩, hall⟩ := h
    exact ⟨⟨t, (hfirst t).mpr ht⟩, fun t' ht' => hall t' ((hfirst t').mp ht')⟩

theorem Notes.shown {names : Option (List String)} (h : Notes q topicName events names)
    (hshows : Shows q topicName e t) :
    Notes q topicName (events ++ [e]) (some (names.getD (q.keyNames t))) := by
  obtain ⟨s, handle, rfl, hhandle⟩ := hshows
  cases names with
  | none =>
    refine ⟨⟨t, firstType_append_singleton.mpr (.inl ⟨⟨s, handle, rfl, hhandle⟩, h⟩)⟩, ?_⟩
    intro t' ht'
    rcases firstType_append_singleton.mp ht' with ⟨⟨s', handle', he, -⟩, -⟩ | ⟨hold, -⟩
    · cases he
      rfl
    · exact absurd hold.seen h
  | some names =>
    obtain ⟨⟨first, hfirst⟩, hall⟩ := h
    refine ⟨⟨first, firstType_append_singleton.mpr (.inr ⟨hfirst, by simp⟩)⟩, ?_⟩
    intro t' ht'
    rcases firstType_append_singleton.mp ht' with ⟨-, hnot⟩ | ⟨hold, -⟩
    · exact absurd hfirst.seen hnot
    · exact hall t' hold

theorem notes_run (q : Introspection) (capacity : Nat) (topicName : String)
    (events : List InstanceEvent) :
    Notes q topicName events ((run q capacity events).keyNames.find? topicName) := by
  -- From the back: the last event is the first to show a type, or what was noted before stays.
  induction events using List.reverseRecOn with
  | nil => exact not_lasts_nil
  | append_singleton events e ih =>
    rw [run_append_singleton]
    cases e with
    | sample name t s =>
      show Notes _ _ _ (((run q capacity events).add q name t s).1.keyNames.find? topicName)
      cases hhandle : resolve q t s with
      | error fault =>
        rw [add_of_unresolved hhandle]
        refine ih.of_quiet ?_ (by simp)
        rintro t' ⟨s', handle, he, hresolved⟩
        cases he
        cases hhandle.symm.trans hresolved
      | ok handle =>
        rw [keyNames_add hhandle, SortedMap.find?_insertNew]
        by_cases hname : topicName = name
        · subst hname
          rw [if_pos rfl]
          exact ih.shown ⟨s, handle, rfl, hhandle⟩
        · rw [if_neg hname]
          refine ih.of_quiet ?_ (by simp)
          rintro t' ⟨s', handle', he, -⟩
          cases he
          exact hname rfl
    | writer w name active =>
      have hsame : (step q (run q capacity events) (.writer w name active)).keyNames =
          (run q capacity events).keyNames := by
        cases active <;> rfl
      rw [hsame]
      refine ih.of_quiet ?_ (by simp)
      rintro t' ⟨s', handle, he, -⟩
      cases he
    | clear =>
      intro hseen
      rcases seen_append_singleton.mp hseen with ⟨t, s, handle, he, -⟩ | ⟨-, hne⟩
      · cases he
      · exact hne rfl

end History

/-- What can speak against a sample. That a topic has no keys is said of the first type seen on it,
which is that of the sample itself only if no other was seen before. -/
inductive Refusal (q : Introspection) (capacity : Nat) (events : List InstanceEvent)
    (topicName : String) (t : DataType) (s : Sample) : Prop where
  | unresolved (fault : InspectionFault) (h : resolve q t s = .error fault)
  | keyless (first : DataType)
      (h : FirstType q topicName (events ++ [.sample topicName t s]) first)
      (hnone : q.keyNames first = [])
  | full (handle : InstanceHandle) (h : resolve q t s = .ok handle)
      (hnew : (run q capacity events).records.find? ⟨topicName, handle⟩ = none)
      (hroom : capacity ≤ (run q capacity events).count topicName)
  | unreadable (handle : InstanceHandle) (h : resolve q t s = .ok handle)
      (hnew : (run q capacity events).records.find? ⟨topicName, handle⟩ = none)
      (hkeys : q.Unreadable t s)

/-- What an accepted sample leaves: a record of its instance with its writer, listed by keys that are
those of the sample unless the instance was known. -/
structure Tracked (q : Introspection) (before after : Instances) (id : InstanceId) (t : DataType)
    (s : Sample) (r : Instance) : Prop where
  handle : resolve q t s = .ok id.handle
  record : after.records.find? id = some r
  writer : r.writers.contains s.writer = true
  listed : r.keys ∈ after.active id.topicName
  known : ∀ old, before.records.find? id = some old → r.keys = old.keys
  new : before.records.find? id = none → q.keyJson t s = .ok r.keys

section Run

variable {q : Introspection} {capacity : Nat} {topicName : String} {events : List InstanceEvent}
  {t : DataType} {s : Sample}

theorem capacity_run : (run q capacity events).capacity = capacity := by
  induction events using List.reverseRecOn with
  | nil => rfl
  | append_singleton events e ih =>
    rw [run_append_singleton]
    cases e with
    | sample name t s => exact (outcome_add q _ name t s).capacity.trans ih
    | writer w name active => cases active <;> exact ih
    | clear => exact ih

theorem keys_ne_of_find?_run (id : InstanceId) (r : Instance)
    (h : (run q capacity events).records.find? id = some r) : r.keys ≠ "" :=
  (justified_of_find?_run h).keys

theorem keyNames_eq_nil_iff {handle : InstanceHandle} (h : resolve q t s = .ok handle) :
    ((run q capacity events).keyNames.find? topicName).getD (q.keyNames t) = [] ↔
      ∃ first, FirstType q topicName (events ++ [.sample topicName t s]) first ∧
        q.keyNames first = [] := by
  obtain ⟨⟨first, hfirst⟩, hall⟩ :=
    (notes_run q capacity topicName events).shown ⟨s, handle, rfl, h⟩
  constructor
  · exact fun hnone => ⟨first, hfirst, (hall first hfirst).trans hnone⟩
  · intro hnone
    obtain ⟨other, hother, hnil⟩ := hnone
    exact (hall other hother).symm.trans hnil

theorem add_run_refused_iff : ((run q capacity events).add q topicName t s).2 = false ↔
    Refusal q capacity events topicName t s := by
  rw [add_refused_iff keys_ne_of_find?_run, capacity_run]
  constructor
  · intro h
    rcases h with ⟨fault, h⟩ | hnone | ⟨handle, h, hnew, hroom | hkeys⟩
    · exact .unresolved fault h
    · cases h : resolve q t s with
      | error fault => exact .unresolved fault h
      | ok handle =>
        obtain ⟨first, hfirst, hnil⟩ := (keyNames_eq_nil_iff h).mp hnone
        exact .keyless first hfirst hnil
    · exact .full handle h hnew hroom
    · exact .unreadable handle h hnew hkeys
  · intro h
    cases h with
    | unresolved fault h => exact .inl ⟨fault, h⟩
    | keyless first hfirst hnil =>
      cases h : resolve q t s with
      | error fault => exact .inl ⟨fault, rfl⟩
      | ok handle => exact .inr (.inl ((keyNames_eq_nil_iff h).mpr ⟨first, hfirst, hnil⟩))
    | full handle h hnew hroom => exact .inr (.inr ⟨handle, h, hnew, .inl hroom⟩)
    | unreadable handle h hnew hkeys => exact .inr (.inr ⟨handle, h, hnew, .inr hkeys⟩)

theorem tracked_of_accepted (h : ((run q capacity events).add q topicName t s).2 = true) :
    ∃ handle r, Tracked q (run q capacity events) ((run q capacity events).add q topicName t s).1
      ⟨topicName, handle⟩ t s r := by
  rcases (outcome_add q (run q capacity events) topicName t s).records with
    ⟨hrefused, -⟩ | ⟨handle, r, hr, -, hrecords⟩
  · rw [hrefused] at h
    cases h
  have hfind : ((run q capacity events).add q topicName t s).1.records.find?
      ⟨topicName, handle⟩ = some r := by
    rw [hrecords, SortedMap.find?_insert, if_pos rfl]
  have hwriter : r.writers.contains s.writer = true := (hr.writers s.writer).mpr (.inl rfl)
  refine ⟨handle, r, hr.handle, hfind, hwriter, ?_, fun old hold => ?_, fun hnew => ?_⟩
  · have halive : r.writers.isEmpty = false := SortedMap.isEmpty_eq_false_iff.mpr ⟨_, hwriter⟩
    exact mem_active.mpr ⟨handle, r, hfind, halive, rfl⟩
  · rcases hr.origin with ⟨old', hold', hkeys⟩ | ⟨hempty, -⟩
    · cases hold.symm.trans hold'
      exact hkeys.symm
    · exact absurd (hempty old hold) (keys_ne_of_find?_run _ old hold)
  · rcases hr.origin with ⟨old, hold, -⟩ | ⟨-, hkeys⟩
    · cases hnew.symm.trans hold
    · exact hkeys

end Run

/-- A sample is refused for the reasons there are and for no other, and if it is not refused then its
instance is tracked. Read off the sample itself, keys are unreadable only by some fault. -/
theorem samples_refused_exactly (q : Introspection) (capacity : Nat) (events : List InstanceEvent)
    (topicName : String) (t : DataType) (s : Sample) :
    (((run q capacity events).add q topicName t s).2 = false ↔
      Refusal q capacity events topicName t s) ∧
    (((run q capacity events).add q topicName t s).2 = true → ∃ handle r,
      Tracked q (run q capacity events) ((run q capacity events).add q topicName t s).1
        ⟨topicName, handle⟩ t s r) ∧
    (Introspection.dynamic.Unreadable t s ↔ ∃ fault, s.keyJson t = .error fault) :=
  ⟨add_run_refused_iff, tracked_of_accepted, unreadable_dynamic_iff⟩

/-- A type without keys on a topic shuts out all samples of keyed types after it. -/
theorem keyed_sample_refused_after_keyless :
    let keyless := Fixture.unkeyedType "Note"
    let keyed := Fixture.keyedType "Position"
    let s := Fixture.keyedSample keyed 7 (Fixture.seededGuid 1)
    let m := run .dynamic 10 [.sample "positions" keyless (Fixture.sample keyless [] .zero)]
    keyed.isKeyed = true ∧ (∃ handle, resolve .dynamic keyed s = .ok handle) ∧
      (∃ keys, s.keyJson keyed = .ok keys) ∧ m.count "positions" < m.capacity ∧
      (m.add .dynamic "positions" keyed s).2 = false := by
  refine ⟨by decide, ⟨.ofKeyHolder [0, 0, 0, 7], rfl⟩, ⟨_, rfl⟩, by decide +kernel, ?_⟩
  decide +kernel

end Instances

end BusScope
