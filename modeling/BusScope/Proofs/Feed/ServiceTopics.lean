import BusScope.Fixture
import BusScope.Proofs.Feed.Passage
import BusScope.Proofs.Glob
import BusScope.Proofs.Network.Arrivals
import BusScope.Proofs.Network.Departure
import BusScope.Settings

/-! Requests and replies of services, which the settings block whatever else they say. To a feed
whose rules all come from settings, it is as if no sample had ever come on such a topic. -/

namespace BusScope

universe u

def isServiceName (name : String) : Bool :=
  "rq/".toList.isPrefixOf name.toList || "rr/".toList.isPrefixOf name.toList

theorem any_serviceTopics (id : TopicId) :
    (Settings.serviceTopics.any fun f => f.accepts id) = isServiceName id.name := by
  have hrequests : Glob.isMatch "rq/*" id.name = "rq/".toList.isPrefixOf id.name.toList :=
    Glob.isMatch_append_star (show '*' ∉ ['r', 'q', '/'] by decide) (by decide) id.name
  have hreplies : Glob.isMatch "rr/*" id.name = "rr/".toList.isPrefixOf id.name.toList :=
    Glob.isMatch_append_star (show '*' ∉ ['r', 'r', '/'] by decide) (by decide) id.name
  have hname : ∀ pattern, (TopicFilter.ofName pattern).accepts id = Glob.isMatch pattern id.name :=
    fun pattern => Bool.and_true _
  rw [Settings.serviceTopics, List.any_cons, List.any_cons, List.any_nil, hname, hname, hrequests,
    hreplies, Bool.or_false, isServiceName]

theorem accepts_serviceTopics {id : TopicId} :
    (∀ f ∈ Settings.serviceTopics, f.accepts id = false) ↔ isServiceName id.name = false := by
  rw [← any_serviceTopics, List.any_eq_false]
  simp only [Bool.not_eq_true]

theorem Settings.permits_allowedTopics {s : Settings} {id : TopicId} :
    s.allowedTopics.permits id = true ↔ isServiceName id.name = false ∧
      (s.rule.allow = [] ∨ ∃ f ∈ s.rule.allow, f.accepts id = true) ∧
      ∀ f ∈ s.rule.block, f.accepts id = false := by
  rw [TopicRule.permits_iff, allowedTopics, List.forall_mem_append, accepts_serviceTopics]
  tauto

def TopicRule.Configured (rule : TopicRule) : Prop := ∃ s : Settings, rule = s.allowedTopics

theorem TopicRule.Configured.permits_eq_false {rule : TopicRule} (h : rule.Configured) {id : TopicId}
    (hid : isServiceName id.name = true) : rule.permits id = false := by
  obtain ⟨s, rfl⟩ := h
  refine Bool.eq_false_of_not_eq_true fun hpermits => ?_
  exact absurd hid (Bool.eq_false_iff.mp (Settings.permits_allowedTopics.mp hpermits).1)

variable {ο : Type u}

def FeedOp.isServiceData : FeedOp ο → Bool
  | .event (.data topic _) => isServiceName topic.name
  | _ => false

namespace Feed

variable {f : Feed ο}

theorem admits_eq_false (hf : f.rule.Configured) {topic : Topic}
    (h : isServiceName topic.name = true) : f.admits topic = false := by
  have hblocked : f.rule.permits topic.id = false := hf.permits_eq_false h
  rw [admits, hblocked, Bool.and_false]

theorem configured_perform (hf : f.rule.Configured) {op : FeedOp ο}
    (hop : ∀ rule, op = .reload rule → rule.Configured) : (f.perform op).1.rule.Configured := by
  rw [perform_rule]
  cases op with
  | reload rule => exact hop rule rfl
  | event | route | activateAll | activate | activatePattern | deactivate => exact hf

theorem configured_cons (hf : f.rule.Configured) {op : FeedOp ο} {rest : List (FeedOp ο)}
    (hops : ∀ rule, .reload rule ∈ op :: rest → rule.Configured) :
    (f.perform op).1.rule.Configured ∧ ∀ rule, .reload rule ∈ rest → rule.Configured :=
  ⟨configured_perform hf fun rule he => hops rule (he ▸ List.mem_cons_self),
    fun rule hmem => hops rule (List.mem_cons_of_mem op hmem)⟩

theorem configured_run (hf : f.rule.Configured) {ops : List (FeedOp ο)}
    (hops : ∀ rule, .reload rule ∈ ops → rule.Configured) : (f.run ops).1.rule.Configured := by
  induction ops generalizing f with
  | nil => exact hf
  | cons op rest ih =>
    obtain ⟨hnext, hrest⟩ := configured_cons hf hops
    exact ih hnext hrest

theorem run_filter_serviceData (hf : f.rule.Configured) {ops : List (FeedOp ο)}
    (hops : ∀ rule, .reload rule ∈ ops → rule.Configured) :
    f.run ops = f.run (ops.filter fun op => !op.isServiceData) := by
  induction ops generalizing f with
  | nil => rfl
  | cons op rest ih =>
    obtain ⟨hnext, hrest⟩ := configured_cons hf hops
    by_cases hop : op.isServiceData = true
    · have hignored : f.perform op = (f, .ignored) := by
        obtain ⟨topic, s, rfl⟩ : ∃ topic s, op = .event (.data topic s) := by
          unfold FeedOp.isServiceData at hop
          split at hop
          · exact ⟨_, _, rfl⟩
          · cases hop
        exact perform_of_blocked topic s (admits_eq_false hf hop)
      rw [List.filter_cons_of_neg (by simp [hop]), ← ih hf hrest, run_cons, hignored]
      rfl
    · rw [List.filter_cons_of_pos (by simpa using hop), run_cons, run_cons, ih hnext hrest]

theorem not_service_of_passed (hf : f.rule.Configured) {ops : List (FeedOp ο)}
    (hops : ∀ rule, .reload rule ∈ ops → rule.Configured) {topic : Topic} {s : Sample}
    (h : .data topic s ∈ f.passed ops) : ¬ isServiceName topic.name = true := by
  induction ops generalizing f with
  | nil => cases h
  | cons op rest ih =>
    rcases List.mem_append.mp h with h | h
    · obtain ⟨-, ha⟩ := passed?_eq_data (Option.mem_toList.mp h)
      intro hname
      rw [admits_eq_false hf hname] at ha
      cases ha
    · obtain ⟨hnext, hrest⟩ := configured_cons hf hops
      exact ih hnext hrest h

end Feed

namespace Network

theorem data_of_history {n : Network ο} {events : List NetworkEvent} {name : String}
    {type : DataType} {s : Sample} (h : .sample name type s ∈ n.history events) :
    ∃ topic, .data topic s ∈ events ∧ topic.name = name := by
  induction events generalizing n with
  | nil => cases h
  | cons e rest ih =>
    rcases List.mem_append.mp h with h | h
    · cases e with
      | participant p => cases h
      | schema t => cases h
      | data topic s' =>
        obtain ⟨type', -, he⟩ := instanceEvent?_data.mp (Option.mem_toList.mp h)
        cases he
        exact ⟨topic, List.mem_cons_self, rfl⟩
      | endpoint e =>
        obtain ⟨-, -, he⟩ := instanceEvent?_endpoint.mp (Option.mem_toList.mp h)
        cases he
    · obtain ⟨topic, hmem, hname⟩ := ih h
      exact ⟨topic, List.mem_cons_of_mem e hmem, hname⟩

theorem data_of_record {settings : NetworkSettings} {q : Introspection}
    {events : List NetworkEvent} {id : InstanceId} {r : Instance}
    (h : ((empty settings q : Network ο).run events).instances.records.find? id = some r) :
    ∃ topic s, .data topic s ∈ events ∧ topic.name = id.topicName := by
  rw [instances_run_empty] at h
  have htracks := Instances.tracks_run q settings.maxInstances
    ((empty settings q : Network ο).history events) id
  rw [h] at htracks
  obtain ⟨w, before, e, after, hevents, ⟨type, s, rfl, -⟩, -⟩ := htracks.alive
  have hmem : .sample id.topicName type s ∈ (empty settings q : Network ο).history events :=
    hevents ▸ List.mem_append_right _ List.mem_cons_self
  obtain ⟨topic, hdata, hname⟩ := data_of_history hmem
  exact ⟨topic, s, hdata, hname⟩

end Network

namespace Feed

/-- At any moment of a run, whatever the settings at the start and those reloaded, a sample on a
service topic changes nothing and goes to no observer. About other topics the lists in the settings
decide: nothing that is blocked gets through, and of the rest whatever is allowed, or all of it if
the list of what is allowed is empty. -/
theorem service_topics_stay_blocked (settings : Settings) (q : Introspection)
    (own : Option (Vector UInt8 12)) (ops : List (FeedOp ο))
    (hreloads : ∀ rule, .reload rule ∈ ops → rule.Configured) :
    let f : Feed ο := start settings.network q own settings.allowedTopics
    (∀ before topic s after, ops = before ++ .event (.data topic s) :: after →
      isServiceName topic.name = true →
        (f.run before).1.perform (.event (.data topic s)) = ((f.run before).1, .ignored)) ∧
    f.run ops = f.run (ops.filter fun op => !op.isServiceData) ∧
    (∀ d ∈ (f.run ops).2, isServiceName d.topic.name = false) ∧
    (∀ id, isServiceName id.name = true → (f.run ops).1.network.rates.find? id = none) ∧
    (∀ id, isServiceName id.topicName = true →
      (f.run ops).1.network.instances.records.find? id = none) ∧
    ∀ (other : Settings) (id : TopicId),
      other.allowedTopics.permits id = true ↔ isServiceName id.name = false ∧
        (other.rule.allow = [] ∨ ∃ f ∈ other.rule.allow, f.accepts id = true) ∧
        ∀ f ∈ other.rule.block, f.accepts id = false := by
  intro f
  have hf : f.rule.Configured := ⟨settings, rfl⟩
  have hpassed : ∀ {topic s}, .data topic s ∈ f.passed ops → ¬ isServiceName topic.name = true :=
    fun h => not_service_of_passed hf hreloads h
  have hnetwork : (f.run ops).1.network.deactivate =
      (Network.empty settings.network q).run (f.passed ops) :=
    network_run_start settings.network q own settings.allowedTopics ops
  refine ⟨?_, run_filter_serviceData hf hreloads, fun d hd => ?_, ?_, ?_,
    fun other id => Settings.permits_allowedTopics⟩
  · rintro before topic s after rfl hname
    have hbefore : (f.run before).1.rule.Configured :=
      configured_run hf fun rule hmem => hreloads rule (List.mem_append_left _ hmem)
    exact perform_of_blocked topic s (admits_eq_false hbefore hname)
  · exact Bool.eq_false_of_not_eq_true (hpassed (passed_of_delivered hd))
  · intro id hname
    -- The activation has no part in rates and instances.
    show (f.run ops).1.network.deactivate.rates.find? id = none
    rw [hnetwork]
    refine Network.find?_rates_eq_none fun topic s hmem hid => hpassed hmem ?_
    subst hid
    exact hname
  · intro id hname
    show (f.run ops).1.network.deactivate.instances.records.find? id = none
    rw [hnetwork, Option.eq_none_iff_forall_ne_some]
    intro r hr
    obtain ⟨topic, s, hmem, htopic⟩ := Network.data_of_record hr
    exact hpassed hmem (htopic ▸ hname)

def welcoming : Settings := { rule := { allow := [.ofName "*", .ofName "rq/*"] } }

def additions : List (FeedOp Unit) :=
  let topic : Topic := ⟨"rq/add", "Add", none, {}⟩
  let type := Fixture.keyedType "Add"
  let request := Fixture.keyedSample type 7 (Fixture.seededGuid 1)
  [.event (.schema type), .activateAll (), .event (.data topic request),
    .reload ({} : Settings).allowedTopics, .event (.data topic request)]

theorem service_topics_stay_blocked_additions :
    (∀ rule, .reload rule ∈ additions → rule.Configured) ∧
      (start welcoming.network .dynamic none welcoming.allowedTopics).run additions =
        (start welcoming.network .dynamic none welcoming.allowedTopics).run
          [.event (.schema (Fixture.keyedType "Add")), .activateAll (),
            .reload ({} : Settings).allowedTopics] := by
  have hreloads : ∀ rule, .reload rule ∈ additions → rule.Configured := by
    intro rule hmem
    have hrule : rule = ({} : Settings).allowedTopics := by
      simpa [additions] using hmem
    exact ⟨{}, hrule⟩
  exact ⟨hreloads, (service_topics_stay_blocked welcoming .dynamic none additions hreloads).2.1⟩

end Feed

end BusScope
