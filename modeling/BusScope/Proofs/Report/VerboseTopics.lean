import BusScope.Fixture
import BusScope.Proofs.Report.Tallies

/-! The verbose listing of topics beside the simple one. It has a detail for every topic that the
simple one has an entry for, but it looks details up by the name alone and so finds the topic of the
first endpoint of that name. The listings agree as long as no name is used with two types; otherwise
there are endpoints that the verbose one does not show. -/

namespace BusScope

universe u

def Report.TopicDetail.summary (d : Report.TopicDetail) : Report.TopicEntry :=
  ⟨d.name, d.typeName, d.writers.length, d.readers.length, d.rate⟩

namespace Network

open Report

variable {ο : Type u}

/-- Of the registered endpoints on topics of that name, the first is on this one. -/
def Leads (n : Network ο) (id : TopicId) : Prop :=
  ∃ g e, n.endpoints.find? g = some e ∧ e.topic.id = id ∧
    ∀ g' e', n.endpoints.find? g' = some e' → e'.topic.name = id.name →
      g' = g ∨ compare g g' = .lt

def OneTypePerName (n : Network ο) : Prop :=
  ∀ id id', n.InUse id → n.InUse id' → id.name = id'.name → id = id'

/-- Some detail has the endpoint among its writers or readers. -/
def ShownIn (g : Guid) (details : List TopicDetail) : Prop :=
  ∃ d ∈ details, g ∈ d.writers ∨ g ∈ d.readers

def foundByName (n : Network ο) (id : TopicId) : TopicId :=
  ((n.topic? id.name).map (·.id)).getD id

theorem Leads.inUse {n : Network ο} {id : TopicId} (h : n.Leads id) : n.InUse id := by
  obtain ⟨g, e, hg, hid, -⟩ := h
  exact ⟨g, e, hg, hid⟩

theorem Leads.eq_of_name_eq {n : Network ο} {id id' : TopicId} (h : n.Leads id) (h' : n.Leads id')
    (hname : id.name = id'.name) : id = id' := by
  obtain ⟨g, e, hg, rfl, hfirst⟩ := h
  obtain ⟨g', e', hg', rfl, hfirst'⟩ := h'
  have hsame : g' = g := by
    rcases hfirst g' e' hg' hname.symm with hsame | hlt
    · exact hsame
    rcases hfirst' g e hg hname with hsame | hlt'
    · exact hsame.symm
    · exact absurd hlt' (Std.OrientedCmp.not_lt_of_lt hlt)
  subst hsame
  cases hg.symm.trans hg'
  rfl

theorem topic?_of_inUse {n : Network ο} {id : TopicId} (hid : n.InUse id) :
    ∃ e, (n.endpoints.findValue? fun e => e.topic.name == id.name) = some e ∧
      n.Leads e.topic.id ∧ e.topic.id.name = id.name := by
  obtain ⟨g, e, hg, rfl⟩ := hid
  have hsome : (n.endpoints.findValue? fun x => x.topic.name == e.topic.name).isSome = true := by
    rw [SortedMap.findValue?, List.find?_isSome]
    exact ⟨e, SortedMap.mem_values.mpr ⟨g, hg⟩, beq_self_eq_true _⟩
  obtain ⟨first, hfirst⟩ := Option.isSome_iff_exists.mp hsome
  obtain ⟨g', hg', hname, hleast⟩ := SortedMap.findValue?_eq_some hfirst
  have hname : first.topic.name = e.topic.name := beq_iff_eq.mp hname
  refine ⟨first, hfirst, ⟨g', first, hg', rfl, fun k v hk hv => ?_⟩, hname⟩
  exact hleast k v hk (beq_iff_eq.mpr (hv.trans hname))

theorem leads_foundByName {n : Network ο} {id : TopicId} (hid : n.InUse id) :
    n.Leads (n.foundByName id) ∧ (n.foundByName id).name = id.name := by
  obtain ⟨e, he, hleads⟩ := topic?_of_inUse hid
  have hfound : n.foundByName id = e.topic.id := by
    rw [foundByName, topic?, he]
    rfl
  rw [hfound]
  exact hleads

section Registered

variable {n : Network ο} (h : Registered n)

include h

theorem topicDetails_eq :
    n.topicDetails = n.activeTopics.map fun id => n.topicDetail (n.foundByName id) := by
  refine List.filterMap_eq_map_iff_forall_eq_some.mpr fun id hid => ?_
  obtain ⟨e, he, -⟩ := topic?_of_inUse ((mem_activeTopics h).mp hid)
  have he' : n.endpoints.values.find? (·.topic.name == id.name) = some e := he
  rw [topicDetail?, activeEndpoints_eq h, he', foundByName, topic?, he]
  rfl

theorem map_name_topicDetails :
    n.topicDetails.map (·.name) = n.topicEntries.map (·.name) := by
  rw [topicDetails_eq h, topicEntries, List.map_map, List.map_map]
  refine List.map_congr_left fun id hid => ?_
  exact (leads_foundByName ((mem_activeTopics h).mp hid)).2

theorem shownIn_topicDetails {g : Guid} {e : Endpoint} (hg : n.endpoints.find? g = some e) :
    ShownIn g n.topicDetails ↔ n.Leads e.topic.id := by
  rw [topicDetails_eq h]
  constructor
  · intro hshown
    obtain ⟨d, hd, hmem⟩ := hshown
    obtain ⟨id, hid, rfl⟩ := List.mem_map.mp hd
    have hleads := (leads_foundByName ((mem_activeTopics h).mp hid)).1
    have htopic : e.topic.id = n.foundByName id := by
      rcases hmem with hmem | hmem
      all_goals
        obtain ⟨e', hg', -, htopic⟩ := (mem_endpointsOn h).mp hmem
        cases hg.symm.trans hg'
        exact htopic
    rw [htopic]
    exact hleads
  · intro hleads
    have huse : n.InUse e.topic.id := hleads.inUse
    obtain ⟨hfound, hname⟩ := leads_foundByName huse
    have hself : n.foundByName e.topic.id = e.topic.id := hfound.eq_of_name_eq hleads hname
    refine ⟨_, List.mem_map_of_mem ((mem_activeTopics h).mpr huse), ?_⟩
    rw [hself]
    cases hkind : e.kind with
    | writer => exact .inl ((mem_endpointsOn h).mpr ⟨e, hg, hkind, rfl⟩)
    | reader => exact .inr ((mem_endpointsOn h).mpr ⟨e, hg, hkind, rfl⟩)

end Registered

theorem OneTypePerName.leads {n : Network ο} (h : n.OneTypePerName) {id : TopicId}
    (hid : n.InUse id) : n.Leads id := by
  obtain ⟨hleads, hname⟩ := leads_foundByName hid
  exact h _ id hleads.inUse hid hname ▸ hleads

theorem oneTypePerName_iff {n : Network ο} :
    n.OneTypePerName ↔ ∀ id, n.InUse id → n.Leads id := by
  constructor
  · exact fun h id hid => h.leads hid
  · exact fun h id id' hid hid' hname => (h id hid).eq_of_name_eq (h id' hid') hname

/-- What the verbose listing has for each topic in use, and when that is what the simple one has. -/
theorem verbose_topics_follow_first_endpoint (settings : NetworkSettings) (q : Introspection)
    (events : List NetworkEvent) :
    let n : Network ο := (empty settings q).run events
    n.topicDetails.map (·.name) = n.topicEntries.map (·.name) ∧
    List.Forall₂ (fun id d => ∃ first, n.Leads first ∧ first.name = id.name ∧
      d = n.topicDetail first ∧ n.Describes first d.summary) n.activeTopics n.topicDetails ∧
    (n.OneTypePerName → n.topicDetails.map TopicDetail.summary = n.topicEntries) ∧
    (n.OneTypePerName ↔ ∀ g e, n.endpoints.find? g = some e → ShownIn g n.topicDetails) := by
  intro n
  have h : Registered n := registered_run settings q events
  refine ⟨map_name_topicDetails h, ?_, fun htypes => ?_, ?_⟩
  · rw [topicDetails_eq h]
    refine List.forall₂_map_right_iff.mpr (List.forall₂_same.mpr fun id hid => ?_)
    obtain ⟨hleads, hname⟩ := leads_foundByName ((mem_activeTopics h).mp hid)
    exact ⟨_, hleads, hname, rfl, describes_topicEntry h _⟩
  · rw [topicDetails_eq h, List.map_map]
    refine List.map_congr_left fun id hid => ?_
    have huse : n.InUse id := (mem_activeTopics h).mp hid
    obtain ⟨hfound, hname⟩ := leads_foundByName huse
    have hself : n.foundByName id = id := htypes _ id hfound.inUse huse hname
    show (n.topicDetail (n.foundByName id)).summary = n.topicEntry id
    rw [hself]
    rfl
  · rw [oneTypePerName_iff]
    constructor
    · exact fun hall g e hg => (shownIn_topicDetails h hg).mpr (hall _ ⟨g, e, hg, rfl⟩)
    · intro hall id hid
      obtain ⟨g, e, hg, rfl⟩ := hid
      exact (shownIn_topicDetails h hg).mp (hall g e hg)

def twoTypes : List NetworkEvent :=
  [.endpoint (Fixture.seededEndpoint .writer true 1 ⟨"positions", "Polar", none, {}⟩),
    .endpoint (Fixture.seededEndpoint .writer true 2 ⟨"positions", "Planar", none, {}⟩)]

/-- The verbose listing has the type of the first writer twice and that of the second not at all. -/
theorem verbose_topics_repeat_first_type :
    let n : Network Unit := (empty {} .dynamic).run twoTypes
    n.topicEntries.map (·.typeName) = ["Planar", "Polar"] ∧
      n.topicDetails.map (·.typeName) = ["Polar", "Polar"] ∧
      n.topicDetails.map TopicDetail.summary ≠ n.topicEntries := by
  intro n
  have hentries : n.topicEntries.map (·.typeName) = ["Planar", "Polar"] := by decide +kernel
  have hdetails : n.topicDetails.map (·.typeName) = ["Polar", "Polar"] := by decide +kernel
  refine ⟨hentries, hdetails, fun hsame => ?_⟩
  have htypes := congrArg (List.map (·.typeName)) hsame
  rw [hentries, List.map_map] at htypes
  exact absurd (hdetails.symm.trans htypes) (by decide)

end Network

end BusScope
