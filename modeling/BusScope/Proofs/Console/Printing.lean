import BusScope.Console.Session
import BusScope.Proofs.Feed.Passage
import BusScope.Proofs.Report.VerboseTopics

/-! Printing the samples of one topic, and what is listed of that topic. Both take the first endpoint
of the name, but reports only look among the active ones; since what is registered is active, they
come to the same topic. The stream is opened exactly if the type of that topic is reported as
discovered. -/

namespace BusScope

universe u

namespace Network

variable {ο : Type u}

def streaming (n : Network ο) (a : Activation ο) : Network ο :=
  { n with stream := { n.stream with activation := a } }

/-- All that can be done to a feed comes down to events and an activation. -/
theorem exists_streaming_of_run (settings : NetworkSettings) (q : Introspection)
    (own : Option (Vector UInt8 12)) (rule : TopicRule) (ops : List (FeedOp ο)) :
    ∃ events a, ((Feed.start settings q own rule).run ops).1.network =
      ((empty settings q).run events).streaming a := by
  refine ⟨(Feed.start settings q own rule).passed ops,
    ((Feed.start settings q own rule).run ops).1.network.stream.activation, ?_⟩
  rw [← Feed.network_run_start]
  rfl

theorem Registered.streaming {n : Network ο} (h : Registered n) (a : Activation ο) :
    Registered (n.streaming a) :=
  ⟨h.participants, h.endpoints⟩

theorem activate?_eq (n : Network ο) (id : TopicId) (observer : ο) :
    n.activate? id observer =
      if n.isDiscovered id = true then some (n.streaming (.topic id observer)) else none := by
  unfold activate? Stream.activate? isDiscovered
  split <;> rfl

theorem leads_of_topic? {n : Network ο} {name : String} {topic : Topic}
    (h : n.topic? name = some topic) : n.Leads topic.id ∧ topic.id.name = name := by
  obtain ⟨e, he, rfl⟩ := Option.map_eq_some_iff.mp h
  obtain ⟨g, hg, hname, hfirst⟩ := SortedMap.findValue?_eq_some he
  have hname : e.topic.name = name := beq_iff_eq.mp hname
  refine ⟨⟨g, e, hg, rfl, fun g' e' hg' hname' => ?_⟩, hname⟩
  exact hfirst g' e' hg' (beq_iff_eq.mpr (hname'.trans hname))

theorem topicDetail?_eq {n : Network ο} (h : Registered n) (name : String) :
    n.topicDetail? name = (n.topic? name).map fun topic => n.topicDetail topic.id := by
  rw [topicDetail?, activeEndpoints_eq h, topic?, Option.map_map]
  rfl

end Network

theorem TopicFilter.isPattern_ofName {name : String} (h : '*' ∉ name.toList ∧ '?' ∉ name.toList) :
    (ofName name).isPattern = false := by
  have hwild : isWild name = false := by
    rw [isWild, List.any_eq_false]
    intro c hc
    have hstar : c ≠ '*' := fun he => h.1 (he ▸ hc)
    have hmark : c ≠ '?' := fun he => h.2 (he ▸ hc)
    simp [hstar, hmark]
  simp [isPattern, ofName, hwild]

/-- The word names a topic and nothing else that topics can be asked for by. -/
structure PlainTopicWord (name : String) : Prop where
  not_wild : '*' ∉ name.toList ∧ '?' ∉ name.toList
  not_verbose : isVerbose name = false
  ne_all : name ≠ "all"

def Command.About (command : Command) (kind : CommandKind) (word : String) : Prop :=
  command.kind = kind ∧ command.argument? 1 = some word

section

variable {name : String} (hname : PlainTopicWord name)

include hname

theorem Network.answer?_topics {ο : Type u} {n : Network ο} (h : n.Registered) {topics : Command}
    (htopics : topics.About .topics name) :
    n.answer? topics = some (match n.topic? name with
      | none => .error (.notFound "topic" name)
      | some topic => .ok (.topic (n.topicDetail topic.id))) := by
  rw [answer?, htopics.1, htopics.2]
  dsimp only
  rw [answerTopics, hname.not_verbose, TopicFilter.isPattern_ofName hname.not_wild,
    topicDetail?_eq h]
  cases n.topic? name <;> rfl

theorem Console.openStream_plain (c : Console) {print : Command}
    (hprint : print.About .print name) :
    c.openStream print = match c.feed.network.topic? name with
      | none => .error (.noSuchTopic name)
      | some topic =>
        if c.feed.network.isDiscovered topic.id = true then
          .ok (c.withNetwork (c.feed.network.streaming
            (.topic topic.id ⟨(print.argument? 2).any isVerbose⟩)))
        else .error .undiscoveredType := by
  rw [openStream, hprint.2]
  dsimp only
  rw [if_neg hname.ne_all, TopicFilter.isPattern_ofName hname.not_wild, if_neg Bool.false_ne_true]
  cases c.feed.network.topic? name with
  | none => rfl
  | some topic =>
    dsimp only
    rw [Network.activate?_eq]
    by_cases h : c.feed.network.isDiscovered topic.id = true
    · rw [if_pos h, if_pos h]
    · rw [if_neg h, if_neg h]

theorem Console.openStream_cases (c : Console) (h : c.feed.network.Registered)
    {print topics : Command} (hprint : print.About .print name)
    (htopics : topics.About .topics name) :
    let n := c.feed.network
    (∃ id, n.Leads id ∧ id.name = name ∧ n.isDiscovered id = true ∧
      n.answer? topics = some (.ok (.topic (n.topicDetail id))) ∧
      c.openStream print = .ok (c.withNetwork
        (n.streaming (.topic id ⟨(print.argument? 2).any isVerbose⟩)))) ∨
    (∀ detail, n.answer? topics = some (.ok (.topic detail)) → detail.discovered = false) ∧
      ∃ refusal, c.openStream print = .error refusal := by
  intro n
  have hanswer := Network.answer?_topics hname h htopics
  have hopen := c.openStream_plain hname hprint
  cases htopic : n.topic? name with
  | none =>
    rw [htopic] at hanswer hopen
    refine .inr ⟨fun detail hdetail => ?_, _, hopen⟩
    cases hanswer.symm.trans hdetail
  | some topic =>
    rw [htopic] at hanswer hopen
    dsimp only at hanswer hopen
    by_cases hknown : n.isDiscovered topic.id = true
    · rw [if_pos hknown] at hopen
      obtain ⟨hleads, hid⟩ := Network.leads_of_topic? htopic
      exact .inl ⟨topic.id, hleads, hid, hknown, hanswer, hopen⟩
    · rw [if_neg hknown] at hopen
      refine .inr ⟨fun detail hdetail => ?_, _, hopen⟩
      cases hanswer.symm.trans hdetail
      exact eq_false_of_ne_true hknown

end

namespace Console

theorem execute_print (c : Console) {print : Command} (hprint : print.kind = .print) :
    c.execute print = match c.openStream print with
      | .ok after => (after, .stream, "")
      | .error refusal => (c, .command, c.errorLine refusal.message) := by
  cases hopen : c.openStream print with
  | ok after => simp only [execute, hprint, hopen]
  | error refusal => simp only [execute, hprint, hopen]

/-- Whatever stream is open: samples of a topic are shown exactly if its type is reported as
discovered, and then they are those of the very topic that the report is about. Otherwise there is an
error, and the stream stays as it was. -/
theorem print_follows_topics (settings : NetworkSettings) (q : Introspection)
    (events : List NetworkEvent) (c : Console) (a : Activation SampleView) {name : String}
    (hname : PlainTopicWord name) {print topics : Command} (hprint : print.About .print name)
    (htopics : topics.About .topics name) :
    let n : Network SampleView := ((Network.empty settings q).run events).streaming a
    let before := c.withNetwork n
    ((∃ after, before.openStream print = .ok after) ↔
      ∃ detail, n.answer? topics = some (.ok (.topic detail)) ∧ detail.discovered = true) ∧
    (∀ after, before.openStream print = .ok after → ∃ id detail, n.Leads id ∧ id.name = name ∧
      n.answer? topics = some (.ok (.topic detail)) ∧ n.Describes id detail.summary ∧
      after = c.withNetwork
        (n.streaming (.topic id ⟨(print.argument? 2).any isVerbose⟩)) ∧
      before.execute print = (after, .stream, "")) ∧
    ((¬ ∃ detail, n.answer? topics = some (.ok (.topic detail)) ∧ detail.discovered = true) →
      ∃ refusal, before.openStream print = .error refusal ∧
        before.execute print = (before, .command, before.errorLine refusal.message)) := by
  intro n before
  have h : n.Registered := (Network.registered_run settings q events).streaming a
  have hexecute := before.execute_print hprint.1
  rcases before.openStream_cases hname h hprint htopics with
    ⟨id, hleads, hid, hknown, hanswer, hopen⟩ | ⟨hnone, refusal, hopen⟩
  · rw [hopen] at hexecute
    have hdetail : ∃ detail, n.answer? topics = some (.ok (.topic detail)) ∧
        detail.discovered = true := ⟨_, hanswer, hknown⟩
    refine ⟨iff_of_true ⟨_, hopen⟩ hdetail, fun after hafter => ?_, absurd hdetail⟩
    cases hopen.symm.trans hafter
    exact ⟨id, _, hleads, hid, hanswer, Network.describes_topicEntry h id, rfl, hexecute⟩
  · rw [hopen] at hexecute
    refine ⟨iff_of_false ?_ ?_, fun after hafter => ?_, fun _ => ⟨refusal, hopen, hexecute⟩⟩
    · intro hafter
      obtain ⟨after, hafter⟩ := hafter
      cases hopen.symm.trans hafter
    · intro hdetail
      obtain ⟨detail, hdetail, hknown⟩ := hdetail
      rw [hnone detail hdetail] at hknown
      cases hknown
    · cases hopen.symm.trans hafter

theorem print_follows_topics_positions :
    let events : List NetworkEvent :=
      [.endpoint (Fixture.seededEndpoint .reader true 2 ⟨"positions", "Planar", none, {}⟩),
        .endpoint (Fixture.seededEndpoint .writer true 1 ⟨"positions", "Polar", none, {}⟩),
        .schema (Fixture.keyedType "Polar")]
    let n : Network SampleView := ((Network.empty {} .dynamic).run events).streaming (.all ⟨false⟩)
    let c : Console := ⟨⟨n, none, {}⟩, false⟩
    PlainTopicWord "positions" ∧ (Command.parse " show positions -v").About .print "positions" ∧
      (Command.parse "t positions").About .topics "positions" ∧
      c.execute (.parse " show positions -v") =
        (c.withNetwork (n.streaming (.topic ⟨"positions", "Polar"⟩ ⟨true⟩)), .stream, "") := by
  intro events n c
  have hname : PlainTopicWord "positions" := ⟨by decide, by decide, by decide⟩
  have hprint : (Command.parse " show positions -v").About .print "positions" := ⟨by rfl, by rfl⟩
  have htopics : (Command.parse "t positions").About .topics "positions" := ⟨by rfl, by rfl⟩
  have hanswer : n.answer? (.parse "t positions") =
      some (.ok (.topic (n.topicDetail ⟨"positions", "Polar"⟩))) := by rfl
  have htopic : n.topic? "positions" = some ⟨"positions", "Polar", none, {}⟩ := by rfl
  obtain ⟨hopens, harms, -⟩ :=
    print_follows_topics {} .dynamic events c (.all ⟨false⟩) hname hprint htopics
  obtain ⟨after, hafter⟩ := hopens.mpr ⟨_, hanswer, by rfl⟩
  obtain ⟨id, detail, hleads, hid, -, -, rfl, hexecute⟩ := harms after hafter
  have hpolar : id = ⟨"positions", "Polar"⟩ :=
    hleads.eq_of_name_eq (Network.leads_of_topic? htopic).1 hid
  rw [hpolar] at hexecute
  exact ⟨hname, hprint, htopics, hexecute⟩

end Console

end BusScope
