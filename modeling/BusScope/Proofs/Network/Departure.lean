import BusScope.Fixture
import BusScope.Proofs.Instances.Liveness
import BusScope.Proofs.Network.Presence

/-! A departed writer keeps no instance alive. Its departure names a topic, and the endpoint it was
known by may name another; as long as the two agree, and agree with the topic of its samples, it
makes no difference which of them the instances are told. -/

namespace BusScope

universe u

namespace NetworkEvent

def Departs (e : NetworkEvent) (w : Guid) : Prop :=
  ∃ x, e = .endpoint x ∧ x.guid = w ∧ x.isWriter = true ∧ x.active = false

def SampledBy (e : NetworkEvent) (w : Guid) : Prop := ∃ topic s, e = .data topic s ∧ s.writer = w

/-- All that is said of an endpoint names the same kind and topic, and samples of a writer come on
its topic. -/
structure Consistent (events : List NetworkEvent) : Prop where
  endpoints : ∀ x y, .endpoint x ∈ events → .endpoint y ∈ events → x.guid = y.guid →
    x.kind = y.kind ∧ x.topic.name = y.topic.name
  samples : ∀ topic s x, .data topic s ∈ events → .endpoint x ∈ events → x.guid = s.writer →
    x.isWriter = true → topic.name = x.topic.name

theorem Consistent.of_append {events more : List NetworkEvent} (h : Consistent (events ++ more)) :
    Consistent events where
  endpoints x y hx hy := h.endpoints x y (List.mem_append_left _ hx) (List.mem_append_left _ hy)
  samples topic s x hs hx :=
    h.samples topic s x (List.mem_append_left _ hs) (List.mem_append_left _ hx)

def Gone (events : List NetworkEvent) (w : Guid) : Prop :=
  Lasts (fun _ e => e.Departs w) (·.SampledBy w) events

end NetworkEvent

theorem Instances.supports_append_toList {q : Introspection} {capacity : Nat}
    {events : List InstanceEvent} {e : Option InstanceEvent} {id : InstanceId} {w : Guid} :
    Supports q capacity (events ++ e.toList) id w ↔
      (∃ x ∈ e, Starts q (run q capacity events) x id w) ∨
        (Supports q capacity events id w ∧ ¬ ∃ x ∈ e, Ends x id w) := by
  cases e with
  | none => simp
  | some x =>
    rw [Option.toList_some, supports_append_singleton]
    simp

namespace Network

open NetworkEvent

variable {ο : Type u}

/-- The event is a sample of the instance by the writer, of a type that is known, and it is
accepted. -/
def Starts (n : Network ο) (e : NetworkEvent) (id : InstanceId) (w : Guid) : Prop :=
  ∃ topic s type, e = .data topic s ∧ n.stream.types.find? topic.typeName = some type ∧
    Instances.Starts n.introspection n.instances (.sample topic.name type s) id w

/-- The writer has had a sample of the instance accepted and has not departed since. -/
def Sustains (n : Network ο) (events : List NetworkEvent) (id : InstanceId) (w : Guid) : Prop :=
  Lasts (fun before e => (n.run before).Starts e id w) (·.Departs w) events

theorem instanceEvent?_data {n : Network ο} {topic : Topic} {s : Sample} {x : InstanceEvent} :
    x ∈ n.instanceEvent? (.data topic s) ↔
      ∃ type, n.stream.types.find? topic.typeName = some type ∧ x = .sample topic.name type s := by
  dsimp only [instanceEvent?]
  rw [Option.mem_def, Option.map_eq_some_iff]
  exact exists_congr fun type => and_congr_right fun _ => eq_comm

theorem instanceEvent?_endpoint {n : Network ο} {e : Endpoint} {x : InstanceEvent} :
    x ∈ n.instanceEvent? (.endpoint e) ↔
      e.active = false ∧ ((n.endpoints.find? e.guid).getD e).isWriter = true ∧
        x = .writer e.guid ((n.endpoints.find? e.guid).getD e).topic.name false := by
  dsimp only [instanceEvent?]
  by_cases ha : e.active = true
  · rw [if_pos ha]
    simp [ha]
  · rw [if_neg ha]
    by_cases hw : ((n.endpoints.find? e.guid).getD e).isWriter = true
    · rw [if_pos hw]
      simp [ha, hw, eq_comm]
    · rw [if_neg hw]
      simp [hw]

theorem starts_iff {n : Network ο} {e : NetworkEvent} {id : InstanceId} {w : Guid} :
    (∃ x ∈ n.instanceEvent? e, Instances.Starts n.introspection n.instances x id w) ↔
      n.Starts e id w := by
  constructor
  · intro h
    obtain ⟨x, hx, hstarts⟩ := h
    cases e with
    | participant p => cases hx
    | schema t => cases hx
    | data topic s =>
      obtain ⟨type, htype, rfl⟩ := instanceEvent?_data.mp hx
      exact ⟨topic, s, type, rfl, htype, hstarts⟩
    | endpoint e =>
      obtain ⟨-, -, rfl⟩ := instanceEvent?_endpoint.mp hx
      exact absurd hstarts (Instances.not_starts_writer w)
  · intro h
    obtain ⟨topic, s, type, rfl, htype, hstarts⟩ := h
    exact ⟨_, instanceEvent?_data.mpr ⟨type, htype, rfl⟩, hstarts⟩

theorem Starts.sampledBy {n : Network ο} {e : NetworkEvent} {id : InstanceId} {w : Guid}
    (h : n.Starts e id w) : ∃ topic s, e = .data topic s ∧ s.writer = w ∧
      topic.name = id.topicName := by
  obtain ⟨topic, s, type, rfl, -, type', s', he, -, -, hw⟩ := h
  obtain ⟨hname, -, rfl⟩ := InstanceEvent.sample.inj he
  exact ⟨topic, s, rfl, hw, hname⟩

theorem sustains_append_singleton {n : Network ο} {events : List NetworkEvent} {e : NetworkEvent}
    {id : InstanceId} {w : Guid} :
    n.Sustains (events ++ [e]) id w ↔
      (n.run events).Starts e id w ∨ (n.Sustains events id w ∧ ¬ e.Departs w) :=
  lasts_append_singleton

theorem Sustains.not_gone {n : Network ο} {events : List NetworkEvent} {id : InstanceId} {w : Guid}
    (h : n.Sustains events id w) : ¬ Gone events w := by
  unfold Sustains at h
  unfold Gone
  -- Of the last sample and the departure, each would have to be the later one.
  refine h.not_both (fun before e hstarts => ?_) (fun before e hdeparts => hdeparts)
  obtain ⟨topic, s, rfl, hs, -⟩ := hstarts.sampledBy
  refine ⟨⟨topic, s, rfl, hs⟩, ?_⟩
  rintro ⟨x, he, -⟩
  cases he

section FromEmpty

variable {settings : NetworkSettings} {q : Introspection} {events : List NetworkEvent}
  {id : InstanceId} {w : Guid}

theorem starts_run_iff {e : NetworkEvent} :
    (∃ x ∈ ((empty settings q : Network ο).run events).instanceEvent? e,
      Instances.Starts q (Instances.run q settings.maxInstances
        ((empty settings q : Network ο).history events)) x id w) ↔
      ((empty settings q : Network ο).run events).Starts e id w := by
  have hq : ((empty settings q : Network ο).run events).introspection = q :=
    introspection_run _ events
  rw [← starts_iff, hq, instances_run_empty]

theorem known_of_consistent (ο : Type u) (settings : NetworkSettings) (q : Introspection)
    {e : Endpoint} (h : Consistent (events ++ [.endpoint e])) :
    ((((empty settings q : Network ο).run events).endpoints.find? e.guid).getD e).kind = e.kind ∧
      ((((empty settings q : Network ο).run events).endpoints.find? e.guid).getD e).topic.name =
        e.topic.name := by
  cases hk : ((empty settings q : Network ο).run events).endpoints.find? e.guid with
  | none => exact ⟨rfl, rfl⟩
  | some known =>
    obtain ⟨hmem, hg, -⟩ := find?_endpoints_run hk
    exact h.endpoints known e (List.mem_append_left _ hmem)
      (List.mem_append_right _ (List.mem_singleton_self _)) hg

theorem ends_iff {e : NetworkEvent} (h : Consistent (events ++ [e]))
    (hw : (empty settings q : Network ο).Sustains events id w) :
    (∃ x ∈ ((empty settings q : Network ο).run events).instanceEvent? e, Instances.Ends x id w) ↔
      e.Departs w := by
  cases e with
  | participant p =>
    constructor
    · rintro ⟨x, hx, -⟩
      cases hx
    · rintro ⟨x, he, -⟩
      cases he
  | schema t =>
    constructor
    · rintro ⟨x, hx, -⟩
      cases hx
    · rintro ⟨x, he, -⟩
      cases he
  | data topic s =>
    constructor
    · rintro ⟨x, hx, hends⟩
      obtain ⟨type, -, rfl⟩ := instanceEvent?_data.mp hx
      exact absurd hends (Instances.not_ends_sample w)
    · rintro ⟨x, he, -⟩
      cases he
  | endpoint e =>
    obtain ⟨hkind, htopic⟩ := known_of_consistent ο settings q h
    constructor
    · rintro ⟨x, hx, hends⟩
      obtain ⟨ha, hwriter, rfl⟩ := instanceEvent?_endpoint.mp hx
      rw [Endpoint.isWriter, hkind] at hwriter
      rcases hends with he | he
      · cases he
      · exact ⟨e, rfl, (InstanceEvent.writer.inj he).1, hwriter, ha⟩
    · rintro ⟨x, he, hg, hwriter, ha⟩
      cases he
      obtain ⟨before, first, after, rfl, hstarts, -⟩ := hw
      -- Its samples came on the topic that the departure names.
      obtain ⟨topic, s, rfl, hs, hname⟩ := hstarts.sampledBy
      have hsame : topic.name = e.topic.name :=
        h.samples topic s e (by simp) (by simp) (hg.trans hs.symm) hwriter
      refine ⟨_, instanceEvent?_endpoint.mpr ⟨ha, ?_, rfl⟩, .inr ?_⟩
      · rw [Endpoint.isWriter, hkind]
        exact hwriter
      · rw [htopic, hg, ← hname, hsame]

theorem supports_iff_sustains (h : Consistent events) :
    Instances.Supports q settings.maxInstances ((empty settings q : Network ο).history events) id w ↔
      (empty settings q : Network ο).Sustains events id w := by
  induction events using List.reverseRecOn with
  | nil => exact ⟨fun hs => absurd hs Instances.not_supports_nil, fun hs => absurd hs not_lasts_nil⟩
  | append_singleton events e ih =>
    rw [history_append_singleton, Instances.supports_append_toList, starts_run_iff,
      ih h.of_append, sustains_append_singleton]
    exact or_congr_right (and_congr_right fun hs => not_congr (ends_iff h hs))

/-- The instances that are alive at the end, and the writers that keep them so. -/
theorem departed_writers_keep_nothing (h : Consistent events) :
    (∀ w, Gone events w →
      ∀ topicName, w ∉ ((empty settings q : Network ο).run events).instances.writersOf topicName) ∧
    ∀ id w, (∃ r, ((empty settings q : Network ο).run events).instances.records.find? id = some r ∧
        r.writers.contains w = true) ↔
      (empty settings q : Network ο).Sustains events id w := by
  have hsustains : ∀ id w, (∃ r, ((empty settings q : Network ο).run events).instances.records.find?
      id = some r ∧ r.writers.contains w = true) ↔
        (empty settings q : Network ο).Sustains events id w := by
    intro id w
    rw [← supports_iff_sustains h, instances_run_empty]
    exact ((Instances.tracks_run q settings.maxInstances _ id).supports_iff w).symm
  refine ⟨fun w hgone topicName hmem => ?_, hsustains⟩
  obtain ⟨handle, r, hr, hw⟩ := Instances.mem_writersOf.mp hmem
  exact ((hsustains _ w).mp ⟨r, hr, hw⟩).not_gone hgone

end FromEmpty

/-- Two writers of one instance, of which the first departs twice. Its arrival was never seen. -/
def relay : List NetworkEvent :=
  let topic : Topic := ⟨"positions", "Position", none, {}⟩
  let type := Fixture.keyedType "Position"
  [.schema type, .endpoint (Fixture.seededEndpoint .writer true 2 topic),
    .data topic (Fixture.keyedSample type 7 (Fixture.seededGuid 1)),
    .data topic (Fixture.keyedSample type 7 (Fixture.seededGuid 2)),
    .endpoint (Fixture.seededEndpoint .writer false 1 topic),
    .endpoint (Fixture.seededEndpoint .writer false 1 topic)]

theorem departed_writers_keep_nothing_relay :
    Consistent relay ∧ Gone relay (Fixture.seededGuid 1) ∧
      (∀ topicName, Fixture.seededGuid 1 ∉
        ((empty {} .dynamic : Network Unit).run relay).instances.writersOf topicName) ∧
      ∃ id r, ((empty {} .dynamic : Network Unit).run relay).instances.records.find? id = some r ∧
        r.writers.contains (Fixture.seededGuid 2) = true := by
  have hnames : ∀ e ∈ relay, match e with
      | .endpoint x => x.kind = .writer ∧ x.topic.name = "positions"
      | .data topic _ => topic.name = "positions"
      | _ => True := by
    simp [relay, Fixture.seededEndpoint]
  have hconsistent : Consistent relay := by
    constructor
    · intro x y hx hy _
      have hx := hnames _ hx
      have hy := hnames _ hy
      exact ⟨hx.1.trans hy.1.symm, hx.2.trans hy.2.symm⟩
    · intro topic s x hs hx _ _
      have hs : topic.name = "positions" := hnames _ hs
      have hx := hnames _ hx
      exact hs.trans hx.2.symm
  have hgone : Gone relay (Fixture.seededGuid 1) := by
    refine ⟨relay.take 5, _, [], rfl, ⟨_, rfl, rfl, rfl, rfl⟩, ?_⟩
    exact fun later hlater => absurd hlater List.not_mem_nil
  have hsustains : (empty {} .dynamic : Network Unit).Sustains relay
      ⟨"positions", .ofKeyHolder [0, 0, 0, 7]⟩ (Fixture.seededGuid 2) := by
    refine ⟨relay.take 3, _, relay.drop 4, rfl, ?_, ?_⟩
    · refine ⟨_, _, Fixture.keyedType "Position", rfl, rfl, _, _, rfl, ?_, rfl, rfl⟩
      decide +kernel
    · simp [relay, Departs, Fixture.seededEndpoint, Fixture.seededGuid]
  refine ⟨hconsistent, hgone, ?_, ⟨"positions", .ofKeyHolder [0, 0, 0, 7]⟩, ?_⟩
  · exact (departed_writers_keep_nothing hconsistent).1 _ hgone
  · exact ((departed_writers_keep_nothing hconsistent).2 _ _).mpr hsustains

end Network

end BusScope
