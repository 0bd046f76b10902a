import BusScope.Proofs.Network.Run

/-! Who is registered, told from what was announced. Each entity fares by its own announcements
alone: it is registered as long as it has not departed since it last arrived, and as it was on the
first arrival since its latest departure. -/

namespace BusScope

universe u

namespace Registry

variable {α : Type} (guid : α → Guid) (active : α → Bool)

def announce (m : SortedMap Guid α) (x : α) : SortedMap Guid α :=
  if active x then m.insertNew (guid x) x else m.erase (guid x)

def heardOf (heard : List α) (g : Guid) : List α := heard.filter fun x => guid x = g

/-- The first arrival since the latest departure, or since the start. -/
def standing? (heard : List α) : Option α := (heard.rtakeWhile active).head?

/-- The registry is the net effect of the announcements, taken entity by entity. -/
structure NetEffect (heard : List α) (m : SortedMap Guid α) : Prop where
  present : ∀ g, m.contains g = true ↔ ∃ x ∈ (heardOf guid heard g).getLast?, active x = true
  record : ∀ g, m.find? g = standing? active (heardOf guid heard g)
  own : ∀ g x, m.find? g = some x → x ∈ heard ∧ guid x = g ∧ active x = true
  entries : ∀ g x, (g, x) ∈ m.entries ↔ m.find? g = some x
  order : m.keys.Pairwise fun g g' => compare g g' = .lt

variable {guid active} {heard : List α} {x : α}

theorem standing?_append_singleton : standing? active (heard ++ [x]) =
    if active x = true then some ((standing? active heard).getD x) else none := by
  unfold standing?
  rw [List.rtakeWhile_concat]
  split
  · rw [List.head?_append]
    cases (heard.rtakeWhile active).head? <;> rfl
  · rfl

theorem standing?_isSome_iff :
    (standing? active heard).isSome = true ↔ ∃ x ∈ heard.getLast?, active x = true := by
  induction heard using List.reverseRecOn with
  | nil => simp [standing?]
  | append_singleton heard x _ =>
    rw [standing?_append_singleton, List.getLast?_concat]
    by_cases h : active x = true <;> simp [h]

theorem mem_of_standing? (h : standing? active heard = some x) : x ∈ heard ∧ active x = true := by
  have hmem : x ∈ heard.rtakeWhile active := List.mem_of_head? h
  exact ⟨(List.rtakeWhile_suffix active heard).subset hmem, List.mem_rtakeWhile_imp hmem⟩

theorem heardOf_append_singleton (g : Guid) : heardOf guid (heard ++ [x]) g =
    heardOf guid heard g ++ if guid x = g then [x] else [] := by
  unfold heardOf
  rw [List.filter_append]
  by_cases h : guid x = g <;> simp [h]

theorem find?_announce (m : SortedMap Guid α) (g : Guid) :
    (announce guid active m x).find? g = if guid x = g then
      (if active x = true then some ((m.find? g).getD x) else none) else m.find? g := by
  unfold announce
  by_cases hg : guid x = g
  · subst hg
    rw [if_pos rfl]
    split
    · rw [SortedMap.find?_insertNew, if_pos rfl]
    · rw [SortedMap.find?_erase, if_pos rfl]
  · rw [if_neg hg]
    split
    · rw [SortedMap.find?_insertNew, if_neg (Ne.symm hg)]
    · rw [SortedMap.find?_erase, if_neg (Ne.symm hg)]

theorem find?_announced (heard : List α) (g : Guid) :
    (heard.foldl (announce guid active) .empty).find? g =
      standing? active (heardOf guid heard g) := by
  induction heard using List.reverseRecOn with
  | nil => rfl
  | append_singleton heard x ih =>
    rw [List.foldl_append, heardOf_append_singleton]
    show (announce guid active _ x).find? g = _
    rw [find?_announce, ih]
    by_cases hg : guid x = g
    · rw [if_pos hg, if_pos hg, standing?_append_singleton]
    · rw [if_neg hg, if_neg hg, List.append_nil]

theorem netEffect_announced (heard : List α) :
    NetEffect guid active heard (heard.foldl (announce guid active) .empty) where
  present g := by
    rw [SortedMap.contains, find?_announced, standing?_isSome_iff]
  record g := find?_announced heard g
  own g x h := by
    rw [find?_announced] at h
    obtain ⟨hmem, hactive⟩ := mem_of_standing? h
    obtain ⟨hmem, hg⟩ := List.mem_filter.mp hmem
    exact ⟨hmem, by simpa using hg, hactive⟩
  entries g x := SortedMap.mem_entries
  order := List.pairwise_map.mpr (SortedMap.sorted _)

theorem NetEffect.eq_of_heardOf_eq {heard' : List α} {m m' : SortedMap Guid α}
    (h : NetEffect guid active heard m) (h' : NetEffect guid active heard' m')
    (hsame : ∀ g, heardOf guid heard g = heardOf guid heard' g) : m = m' := by
  refine SortedMap.eq_of_find?_eq fun g => ?_
  rw [h.record, h'.record, hsame]

theorem announce_of_repeated {m : SortedMap Guid α} (h : active x = m.contains (guid x)) :
    announce guid active m x = m := by
  refine SortedMap.eq_of_find?_eq fun g => ?_
  rw [find?_announce]
  by_cases hg : guid x = g
  · subst hg
    rw [if_pos rfl, h, SortedMap.contains]
    cases m.find? (guid x) <;> rfl
  · rw [if_neg hg]

end Registry

namespace NetworkEvent

def participant? : NetworkEvent → Option Participant
  | .participant p => some p
  | _ => none

def endpoint? : NetworkEvent → Option Endpoint
  | .endpoint e => some e
  | _ => none

@[simp]
theorem endpoint?_eq_some_iff {e : NetworkEvent} {x : Endpoint} :
    endpoint? e = some x ↔ e = .endpoint x := by
  cases e <;> simp [endpoint?]

end NetworkEvent

namespace Network

open NetworkEvent Registry

variable {ο : Type u}

theorem participants_step (n : Network ο) (e : NetworkEvent) :
    (n.step e).participants = (participant? e).toList.foldl
      (announce Participant.guid Participant.active) n.participants := by
  cases e with
  | participant p => rfl
  | endpoint e =>
    show (n.endpointEvent e).participants = n.participants
    unfold endpointEvent
    split <;> rfl
  | schema t => rfl
  | data topic s => rfl

theorem endpoints_step (n : Network ο) (e : NetworkEvent) :
    (n.step e).endpoints = (endpoint? e).toList.foldl
      (announce Endpoint.guid Endpoint.active) n.endpoints := by
  cases e with
  | participant p => rfl
  | endpoint e =>
    show (n.endpointEvent e).endpoints = announce Endpoint.guid Endpoint.active n.endpoints e
    unfold endpointEvent announce
    split <;> rfl
  | schema t => rfl
  | data topic s => rfl

section FromEmpty

variable (settings : NetworkSettings) (q : Introspection) (events : List NetworkEvent)

theorem participants_run : ((empty settings q : Network ο).run events).participants =
    (events.filterMap participant?).foldl
      (announce Participant.guid Participant.active) .empty := by
  induction events using List.reverseRecOn with
  | nil => rfl
  | append_singleton events e ih =>
    rw [run_append_singleton, participants_step, ih, List.filterMap_append, List.foldl_append]
    cases h : participant? e <;> simp [h]

theorem endpoints_run : ((empty settings q : Network ο).run events).endpoints =
    (events.filterMap endpoint?).foldl (announce Endpoint.guid Endpoint.active) .empty := by
  induction events using List.reverseRecOn with
  | nil => rfl
  | append_singleton events e ih =>
    rw [run_append_singleton, endpoints_step, ih, List.filterMap_append, List.foldl_append]
    cases h : endpoint? e <;> simp [h]

theorem netEffect_participants : NetEffect Participant.guid Participant.active
    (events.filterMap participant?)
    ((empty settings q : Network ο).run events).participants := by
  rw [participants_run]
  exact netEffect_announced _

theorem netEffect_endpoints : NetEffect Endpoint.guid Endpoint.active
    (events.filterMap endpoint?) ((empty settings q : Network ο).run events).endpoints := by
  rw [endpoints_run]
  exact netEffect_announced _

variable {settings q events}

theorem find?_endpoints_run {g : Guid} {x : Endpoint}
    (h : ((empty settings q : Network ο).run events).endpoints.find? g = some x) :
    .endpoint x ∈ events ∧ x.guid = g ∧ x.active = true := by
  obtain ⟨hmem, hown⟩ := (netEffect_endpoints settings q events).own g x h
  exact ⟨by simpa using hmem, hown⟩

end FromEmpty

/-- Each registry at the end of a run is the net effect of what was announced of each entity. So it
makes no difference how the announcements of different entities are interleaved, and repeated
arrivals and departures change nothing. -/
theorem registries_follow_histories (settings : NetworkSettings) (q : Introspection)
    (events : List NetworkEvent) :
    let n : Network ο := (empty settings q).run events
    NetEffect Participant.guid Participant.active (events.filterMap participant?) n.participants ∧
    NetEffect Endpoint.guid Endpoint.active (events.filterMap endpoint?) n.endpoints ∧
    (∀ p, p.active = n.participants.contains p.guid → n.participantEvent p = n) ∧
    (∀ e, e.active = n.endpoints.contains e.guid →
      (n.endpointEvent e).endpoints = n.endpoints ∧ (e.active = true → n.endpointEvent e = n)) ∧
    ∀ others : List NetworkEvent,
      ((∀ g, heardOf Participant.guid (events.filterMap participant?) g =
          heardOf Participant.guid (others.filterMap participant?) g) →
        n.participants = ((empty settings q : Network ο).run others).participants) ∧
      ((∀ g, heardOf Endpoint.guid (events.filterMap endpoint?) g =
          heardOf Endpoint.guid (others.filterMap endpoint?) g) →
        n.endpoints = ((empty settings q : Network ο).run others).endpoints) := by
  intro n
  have hparticipants := netEffect_participants (ο := ο) settings q events
  have hendpoints := netEffect_endpoints (ο := ο) settings q events
  refine ⟨hparticipants, hendpoints, fun p hp => ?_, fun e he => ⟨?_, fun ha => ?_⟩,
    fun others => ⟨fun hsame => ?_, fun hsame => ?_⟩⟩
  · show { n with participants := announce Participant.guid Participant.active n.participants p } = n
    rw [announce_of_repeated hp]
  · show (n.step (.endpoint e)).endpoints = n.endpoints
    rw [endpoints_step]
    exact announce_of_repeated he
  · have hsame := announce_of_repeated he
    rw [announce, if_pos ha] at hsame
    rw [endpointEvent, if_pos ha, hsame]
  · exact hparticipants.eq_of_heardOf_eq (netEffect_participants settings q others) hsame
  · exact hendpoints.eq_of_heardOf_eq (netEffect_endpoints settings q others) hsame

end Network

end BusScope
