import BusScope.Proofs.Instances.Liveness
import BusScope.Proofs.Keys

/-! The keys of an instance are read off one sample and kept for all that follow. On a topic of one
keyed type this loses nothing: whichever sample of the instance had been read, the keys would be
the same, since samples of one handle have equal keys. -/

namespace BusScope

theorem sameKeys_iff_of_short {t : DataType} {v w : Value} {first second : List UInt8}
    (ht : t.isKeyed = true) (hd : ∀ s ∈ t.parts, s.namesDistinct = true)
    (hroom : ∀ f ∈ t.keyFields, ∀ s ∈ f.type.parts, s.itemsTakeRoom = true)
    (hv : t.Settled v) (hw : t.Settled w) (hfirst : keyHolder t v = .ok first)
    (hsecond : keyHolder t w = .ok second) (hl : first.length ≤ 16) (hl' : second.length ≤ 16) :
    InstanceHandle.ofKeyHolder first = .ofKeyHolder second ↔ t.SameKeys v w := by
  constructor
  · intro h
    have hpadded := InstanceHandle.append_eq_of_ofKeyHolder_eq hl hl' h
    exact sameKeys_of_append_eq ht hd hroom hv hw hfirst hsecond hpadded
  · intro h
    have hholders := keyHolder_congr h
    rw [hfirst, hsecond] at hholders
    rw [Except.ok.inj hholders]

/-- The sample carries no handle or the one that its keys give, and its keys are short enough to be
their own handle. -/
structure Sample.Ordinary (s : Sample) (t : DataType) : Prop where
  handle : s.handle = .nil ∨ s.keyHandle t = .ok s.handle
  short : ∀ v holder, s.value t = .ok v → keyHolder t v = .ok holder → holder.length ≤ 16

theorem Sample.Ordinary.keyHandle {s : Sample} {t : DataType} {handle : InstanceHandle}
    (h : s.Ordinary t) (ht : t.isKeyed = true)
    (hr : Instances.resolve .dynamic t s = .ok handle) : s.keyHandle t = .ok handle := by
  unfold Instances.resolve at hr
  split at hr
  · exact hr
  · next hcarried =>
    -- The handle that came with the sample is taken, unless it is nil and the type is keyed.
    rcases h.handle with hnil | hkeys
    · have hisNil : s.handle.isNil = true := by rw [hnil, InstanceHandle.isNil, beq_self_eq_true]
      rw [hisNil, ht] at hcarried
      exact absurd rfl hcarried
    · exact hkeys.trans hr

theorem Sample.keyHandle_eq_ok {s : Sample} {t : DataType} {handle : InstanceHandle}
    (ht : t.isKeyed = true) (h : s.keyHandle t = .ok handle) :
    ∃ v holder, s.value t = .ok v ∧ keyHolder t v = .ok holder ∧ .ofKeyHolder holder = handle := by
  cases hv : s.value t with
  | error e =>
    rw [Sample.keyHandle, hv] at h
    cases h
  | ok v =>
    rw [Sample.keyHandle_eq ht hv] at h
    cases hh : keyHolder t v with
    | error e => rw [hh] at h; cases h
    | ok holder =>
      rw [hh] at h
      exact ⟨v, holder, rfl, hh, Except.ok.inj h⟩

theorem Sample.keyJson_congr {a b : Sample} {t : DataType} {v w : Value} (ha : a.value t = .ok v)
    (hb : b.value t = .ok w) (h : t.SameKeys v w) : a.keyJson t = b.keyJson t := by
  rw [keyJson, keyJson, ha, hb]
  dsimp only
  rw [keyRecord_congr h]

namespace Instances

def Accepts (q : Introspection) (capacity : Nat) (events : List InstanceEvent) (id : InstanceId)
    (type : DataType) (s : Sample) : Prop :=
  ∃ before after, events = before ++ .sample id.topicName type s :: after ∧
    ((run q capacity before).add q id.topicName type s).2 = true ∧
    resolve q type s = .ok id.handle

/-- All samples on the topic are of the one type, and ordinary for it. -/
def Carries (t : DataType) (topicName : String) (events : List InstanceEvent) : Prop :=
  ∀ type s, .sample topicName type s ∈ events → type = t ∧ s.Ordinary t

variable {q : Introspection} {capacity : Nat} {events : List InstanceEvent} {id : InstanceId}
  {t : DataType} {s : Sample}

theorem Opens.accepts (h : Opens q capacity events id t s) : Accepts q capacity events id t s := by
  obtain ⟨before, after, hevents, haccepted, hhandle, -, -⟩ := h
  exact ⟨before, after, hevents, haccepted, hhandle⟩

theorem Accepts.mem (h : Accepts q capacity events id t s) :
    .sample id.topicName t s ∈ events := by
  obtain ⟨before, after, rfl, -, -⟩ := h
  exact List.mem_append_right before List.mem_cons_self

theorem Accepts.handle (h : Accepts q capacity events id t s) : resolve q t s = .ok id.handle := by
  obtain ⟨before, after, -, -, hhandle⟩ := h
  exact hhandle

/-- To a record that is known the two paths of a sample do the same, as long as the sample would
give it the keys that it has. -/
theorem add_eq_enroll {m : Instances} {r : Instance} (hr : m.records.find? id = some r)
    (hhandle : resolve q t s = .ok id.handle) (hkeys : r.keys ≠ "")
    (hjson : q.keyJson t s = .ok r.keys) (haccepted : (m.add q id.topicName t s).2 = true) :
    m.add q id.topicName t s =
      { m with keyNames := m.keyNames.insertNew id.topicName (q.keyNames t) }.enroll q id t s := by
  have hne : ¬ r.keys.isEmpty = true := by simpa using hkeys
  have henroll : { m with keyNames := m.keyNames.insertNew id.topicName (q.keyNames t) }.enroll
      q id t s = ({ m with keyNames := m.keyNames.insertNew id.topicName (q.keyNames t) }.put id
        { r with writers := r.writers.insert s.writer () }, true) := by
    unfold enroll
    rw [hjson]
    dsimp only
    rw [if_neg hne, hr]
  rw [henroll]
  unfold add at haccepted ⊢
  rw [hhandle] at haccepted ⊢
  dsimp only at haccepted ⊢
  split
  · next hnone =>
    rw [if_pos hnone] at haccepted
    cases haccepted
  · rw [hr]
    dsimp only
    rw [if_neg hne]

section OneType

variable {topicName : String} (ht : t.isKeyed = true)
  (hd : ∀ s ∈ t.parts, s.namesDistinct = true)
  (hroom : ∀ f ∈ t.keyFields, ∀ s ∈ f.type.parts, s.itemsTakeRoom = true)

include ht hd hroom

theorem handle_eq_iff_sameKeys {a b : Sample} {handle handle' : InstanceHandle}
    (ha : a.Ordinary t) (hb : b.Ordinary t) (hresolve : resolve .dynamic t a = .ok handle)
    (hresolve' : resolve .dynamic t b = .ok handle') :
    ∃ v w, a.value t = .ok v ∧ b.value t = .ok w ∧ (handle = handle' ↔ t.SameKeys v w) := by
  obtain ⟨v, first, hv, hfirst, rfl⟩ := Sample.keyHandle_eq_ok ht (ha.keyHandle ht hresolve)
  obtain ⟨w, second, hw, hsecond, rfl⟩ := Sample.keyHandle_eq_ok ht (hb.keyHandle ht hresolve')
  refine ⟨v, w, hv, hw, ?_⟩
  exact sameKeys_iff_of_short ht hd hroom (Sample.settled_value hd hv) (Sample.settled_value hd hw)
    hfirst hsecond (ha.short v first hv hfirst) (hb.short w second hw hsecond)

theorem keyJson_eq_of_handle_eq {a b : Sample} {handle : InstanceHandle} (ha : a.Ordinary t)
    (hb : b.Ordinary t) (hresolve : resolve .dynamic t a = .ok handle)
    (hresolve' : resolve .dynamic t b = .ok handle) : a.keyJson t = b.keyJson t := by
  obtain ⟨v, w, hv, hw, hsame⟩ := handle_eq_iff_sameKeys ht hd hroom ha hb hresolve hresolve'
  exact Sample.keyJson_congr hv hw (hsame.mp rfl)

theorem keyJson_of_record {handle : InstanceHandle} {r : Instance}
    (h : Carries t topicName events)
    (hr : (run .dynamic capacity events).records.find? ⟨topicName, handle⟩ = some r)
    (hs : s.Ordinary t) (hresolve : resolve .dynamic t s = .ok handle) :
    s.keyJson t = .ok r.keys := by
  have hrecord := justified_of_find?_run hr
  -- The record got its keys from the sample that opened it.
  obtain ⟨type, first, hopen⟩ := hrecord.opened
  have hkeys : first.keyJson type = .ok r.keys := hrecord.origin type first hopen
  obtain ⟨rfl, hfirst⟩ := h type first hopen.accepts.mem
  rw [← hkeys]
  exact keyJson_eq_of_handle_eq ht hd hroom hs hfirst hresolve hopen.accepts.handle

/-- Keys once read stay right. A sample of a known instance is dealt with as if its own keys had
been read, and samples share a record exactly if their keys are equal. -/
theorem records_keep_keys (h : Carries t topicName events) :
    (∀ handle r s, (run .dynamic capacity events).records.find? ⟨topicName, handle⟩ = some r →
      Accepts .dynamic capacity events ⟨topicName, handle⟩ t s → s.keyJson t = .ok r.keys) ∧
    (∀ handle handle' a b, Accepts .dynamic capacity events ⟨topicName, handle⟩ t a →
      Accepts .dynamic capacity events ⟨topicName, handle'⟩ t b →
      ∃ v w, a.value t = .ok v ∧ b.value t = .ok w ∧ (handle = handle' ↔ t.SameKeys v w)) ∧
    ∀ handle r s, (run .dynamic capacity events).records.find? ⟨topicName, handle⟩ = some r →
      s.Ordinary t → resolve .dynamic t s = .ok handle →
      ((run .dynamic capacity events).add .dynamic topicName t s).2 = true →
      (run .dynamic capacity events).add .dynamic topicName t s =
        { run .dynamic capacity events with
          keyNames := (run .dynamic capacity events).keyNames.insertNew topicName t.keyNames }.enroll
            .dynamic ⟨topicName, handle⟩ t s := by
  refine ⟨fun handle r s hr hs => ?_, fun handle handle' a b ha hb => ?_,
    fun handle r s hr hs hresolve haccepted => ?_⟩
  · exact keyJson_of_record ht hd hroom h hr (h t s hs.mem).2 hs.handle
  · exact handle_eq_iff_sameKeys ht hd hroom (h t a ha.mem).2 (h t b hb.mem).2 ha.handle hb.handle
  · have hjson := keyJson_of_record ht hd hroom h hr hs hresolve
    exact add_eq_enroll hr hresolve (justified_of_find?_run hr).keys
      hjson haccepted

end OneType

def trackHandle : InstanceHandle :=
  .ofKeyHolder [0, 0, 0, 3, 97, 98, 0, 0, 0, 0, 0, 1, 0, 7]

def trackEvents : List InstanceEvent :=
  [.sample "tracks" track (trackSample .little [7] 1), .writer .zero "elsewhere" false,
    .sample "tracks" track { trackSample .big [7] 2 with handle := trackHandle }]

theorem records_keep_keys_track :
    track.isKeyed = true ∧ (∀ s ∈ track.parts, s.namesDistinct = true) ∧
      (∀ f ∈ track.keyFields, ∀ s ∈ f.type.parts, s.itemsTakeRoom = true) ∧
      Carries track "tracks" trackEvents ∧
      ∃ r, (run .dynamic 1 trackEvents).records.find? ⟨"tracks", trackHandle⟩ = some r ∧
        { trackSample .big [7] 2 with handle := trackHandle }.keyJson track = .ok r.keys := by
  have ht : track.isKeyed = true := by decide
  have hd : ∀ s ∈ track.parts, s.namesDistinct = true := by decide
  have hroom : ∀ f ∈ track.keyFields, ∀ s ∈ f.type.parts, s.itemsTakeRoom = true := by decide
  have hlittle : (trackSample .little [7] 1).value track = .ok (trackValue [7] 1) := by rfl
  have hbig : { trackSample .big [7] 2 with handle := trackHandle }.value track =
      .ok (trackValue [7] 2) := by rfl
  have hfirst : keyHolder track (trackValue [7] 1) =
      .ok [0, 0, 0, 3, 97, 98, 0, 0, 0, 0, 0, 1, 0, 7] := by rfl
  have hsecond : keyHolder track (trackValue [7] 2) =
      .ok [0, 0, 0, 3, 97, 98, 0, 0, 0, 0, 0, 1, 0, 7] := by rfl
  have hcarries : Carries track "tracks" trackEvents := by
    intro type s hs
    rcases List.mem_cons.mp hs with he | hs
    · cases he
      refine ⟨rfl, .inl rfl, fun v holder hv hh => ?_⟩
      cases hlittle.symm.trans hv
      cases hfirst.symm.trans hh
      decide
    rcases List.mem_cons.mp hs with he | hs
    · cases he
    · cases List.mem_singleton.mp hs
      refine ⟨rfl, .inr ?_, fun v holder hv hh => ?_⟩
      · rw [Sample.keyHandle_eq ht hbig, hsecond]
        rfl
      · cases hbig.symm.trans hv
        cases hsecond.symm.trans hh
        decide
  have hresolve : resolve .dynamic track { trackSample .big [7] 2 with handle := trackHandle } =
      .ok trackHandle := by rfl
  have haccepted : ((run .dynamic 1 (trackEvents.take 2)).add .dynamic "tracks" track
      { trackSample .big [7] 2 with handle := trackHandle }).2 = true := by decide +kernel
  have haccepts : Accepts .dynamic 1 trackEvents ⟨"tracks", trackHandle⟩ track
      { trackSample .big [7] 2 with handle := trackHandle } :=
    ⟨trackEvents.take 2, [], rfl, haccepted, hresolve⟩
  have hsupports : Supports .dynamic 1 trackEvents ⟨"tracks", trackHandle⟩ .zero :=
    ⟨trackEvents.take 2, _, [], rfl, ⟨_, _, rfl, haccepted, hresolve, rfl⟩,
      fun later hlater => absurd hlater List.not_mem_nil⟩
  obtain ⟨r, hr⟩ := find?_run_iff.mpr ⟨.zero, hsupports⟩
  exact ⟨ht, hd, hroom, hcarries, r, hr,
    (records_keep_keys ht hd hroom hcarries).1 trackHandle r _ hr haccepts⟩

end Instances

end BusScope
