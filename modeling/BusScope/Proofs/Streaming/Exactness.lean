import BusScope.Proofs.Streaming.Run

/-! What the observers are handed, told from the operations alone. A sample is due to the observer
of the activation in force if its topic is let through and the type of the topic is known; exactly
the samples that are due are handed over, in the order in which they come. -/

namespace BusScope

universe u v

def moments {α : Type u} : List α → List α → List (List α × α)
  | _, [] => []
  | before, x :: rest => (before, x) :: moments (before ++ [x]) rest

theorem moments_append_singleton {α : Type u} (before l : List α) (x : α) :
    moments before (l ++ [x]) = moments before l ++ [(before ++ l, x)] := by
  induction l generalizing before with
  | nil => rw [List.append_nil]; rfl
  | cons y l ih =>
    show (before, y) :: moments (before ++ [y]) (l ++ [x]) = _
    rw [ih, List.append_assoc]
    rfl

theorem filterMap_moments_append_singleton {α : Type u} {β : Type v} (g : List α → α → Option β)
    (l : List α) (x : α) : (moments [] (l ++ [x])).filterMap (fun m => g m.1 m.2) =
      (moments [] l).filterMap (fun m => g m.1 m.2) ++ (g l x).toList := by
  rw [moments_append_singleton, List.filterMap_append, List.nil_append]
  cases h : g l x <;> simp [h]

variable {ο : Type u}

namespace Feed

def start (settings : NetworkSettings) (introspection : Introspection)
    (own : Option (Vector UInt8 12)) (rule : TopicRule) : Feed ο :=
  ⟨.empty settings introspection, own, rule⟩

/-- The rule of the last reload, or else the one that there was. -/
def ruleInForce (rule : TopicRule) (ops : List (FeedOp ο)) : TopicRule :=
  (ops.filterMap FeedOp.rule?).getLastD rule

def lastType? (name : String) (ops : List (FeedOp ο)) : Option DataType :=
  (ops.filterMap (FeedOp.typeNamed? name)).getLast?

/-- The last activation that was not refused, unless the stream was stopped after it. -/
def inForce (f : Feed ο) (ops : List (FeedOp ο)) : Activation ο :=
  ((moments [] ops).filterMap fun m => m.2.activation? (f.run m.1).1).getLastD .off

def due (f : Feed ο) (before : List (FeedOp ο)) : FeedOp ο → Option (Delivery ο)
  | .event (.data topic sample) =>
    if topic.isReserved = false ∧ (ruleInForce f.rule before).permits topic.id = true then
      ((f.inForce before).observer? topic.id).bind fun observer =>
        (lastType? topic.typeName before).map fun type => ⟨observer, topic, type, sample⟩
    else none
  | _ => none

theorem ruleInForce_append_singleton (rule : TopicRule) (ops : List (FeedOp ο)) (op : FeedOp ο) :
    ruleInForce rule (ops ++ [op]) = op.rule?.getD (ruleInForce rule ops) := by
  unfold ruleInForce
  rw [List.filterMap_append]
  cases h : op.rule? <;> simp [h]

theorem lastType?_append_singleton (name : String) (ops : List (FeedOp ο)) (op : FeedOp ο) :
    lastType? name (ops ++ [op]) = (op.typeNamed? name).or (lastType? name ops) := by
  unfold lastType?
  rw [List.filterMap_append]
  cases h : op.typeNamed? name <;> simp [h]

theorem inForce_append_singleton (f : Feed ο) (ops : List (FeedOp ο)) (op : FeedOp ο) :
    f.inForce (ops ++ [op]) = (op.activation? (f.run ops).1).getD (f.inForce ops) := by
  unfold inForce
  rw [filterMap_moments_append_singleton fun before op => FeedOp.activation? (f.run before).1 op]
  cases op.activation? (f.run ops).1 <;> simp

/-- The state after the operations says what the operations say, and the type of a topic that is
activated is known. -/
structure Reflects (f : Feed ο) (ops : List (FeedOp ο)) : Prop where
  rule : (f.run ops).1.rule = ruleInForce f.rule ops
  types : ∀ name, (f.run ops).1.network.stream.types.find? name = lastType? name ops
  activation : (f.run ops).1.network.stream.activation = f.inForce ops
  armed : ∀ id observer, f.inForce ops = .topic id observer → (lastType? id.typeName ops).isSome

theorem reflects_run (settings : NetworkSettings) (introspection : Introspection)
    (own : Option (Vector UInt8 12)) (rule : TopicRule) (ops : List (FeedOp ο)) :
    (start settings introspection own rule : Feed ο).Reflects ops := by
  generalize hf : (start settings introspection own rule : Feed ο) = f
  induction ops using List.reverseRecOn with
  | nil =>
    subst hf
    exact ⟨rfl, fun _ => rfl, rfl, fun _ _ h => nomatch h⟩
  | append_singleton ops op ih =>
    have hrun : (f.run (ops ++ [op])).1 = ((f.run ops).1.perform op).1 := by
      rw [run_append_singleton]
    constructor
    · rw [hrun, perform_rule, ih.rule, ruleInForce_append_singleton]
    · intro name
      rw [hrun, perform_types, ih.types, lastType?_append_singleton]
    · rw [hrun, perform_activation, ih.activation, inForce_append_singleton]
    · intro id observer h
      rw [lastType?_append_singleton, Option.isSome_or, Bool.or_eq_true]
      right
      rw [inForce_append_singleton] at h
      cases hop : op.activation? (f.run ops).1 with
      | none => exact ih.armed id observer (by rwa [hop] at h)
      | some a =>
        rw [hop] at h
        -- What was activated just now was not refused, and refusal is for unknown types.
        have hknown := FeedOp.contains_of_activation? (hop.trans (congrArg some h))
        rw [SortedMap.contains, ih.types] at hknown
        exact hknown

end Feed

namespace Stream

theorem delivery?_handOver (s : Stream ο) (observer : ο) (topic : Topic) (sample : Sample)
    {unknown : Dispatch ο} (hu : unknown.delivery? = none) :
    (s.handOver observer topic sample unknown).delivery? =
      (s.types.find? topic.typeName).map fun type => ⟨observer, topic, type, sample⟩ := by
  unfold handOver
  cases s.types.find? topic.typeName with
  | none => exact hu
  | some type => rfl

theorem delivery?_dispatch (s : Stream ο) (topic : Topic) (sample : Sample) :
    (s.dispatch topic sample).delivery? =
      (s.activation.observer? topic.id).bind fun observer =>
        (s.types.find? topic.typeName).map fun type => ⟨observer, topic, type, sample⟩ := by
  obtain ⟨types, activation⟩ := s
  cases activation with
  | off => rfl
  | all observer => exact delivery?_handOver _ observer topic sample rfl
  | topic id observer =>
    unfold dispatch Activation.observer?
    dsimp only
    split
    · exact delivery?_handOver _ observer topic sample rfl
    · rfl
  | pattern filter observer =>
    unfold dispatch Activation.observer?
    dsimp only
    split
    · exact delivery?_handOver _ observer topic sample rfl
    · rfl

theorem handOver_ne_untyped {s : Stream ο} {observer : ο} {topic : Topic} {sample : Sample}
    {unknown : Dispatch ο} {id : TopicId}
    (hu : s.types.find? topic.typeName = none → unknown ≠ .untyped id) :
    s.handOver observer topic sample unknown ≠ .untyped id := by
  unfold handOver
  cases h : s.types.find? topic.typeName with
  | none => exact hu h
  | some type => nofun

/-- A topic is activated only when its type is known, so that the type cannot be missing. -/
theorem dispatch_ne_untyped {s : Stream ο} (harmed : ∀ id observer,
    s.activation = .topic id observer → (s.types.find? id.typeName).isSome) (topic : Topic)
    (sample : Sample) (id : TopicId) : s.dispatch topic sample ≠ .untyped id := by
  obtain ⟨types, activation⟩ := s
  cases activation with
  | off => nofun
  | all observer => exact handOver_ne_untyped nofun
  | topic armed observer =>
    unfold dispatch
    dsimp only
    split
    · next hid =>
      refine handOver_ne_untyped fun hnone => ?_
      have hsome := harmed armed observer rfl
      have hname : armed.typeName = topic.typeName := congrArg (·.typeName) hid
      rw [hname, hnone] at hsome
      cases hsome
    · nofun
  | pattern filter observer =>
    unfold dispatch
    dsimp only
    split
    · exact handOver_ne_untyped nofun
    · nofun

end Stream

namespace Feed

theorem Reflects.admits_iff {f : Feed ο} {ops : List (FeedOp ο)} (h : f.Reflects ops)
    (topic : Topic) : (f.run ops).1.admits topic = true ↔
      topic.isReserved = false ∧ (ruleInForce f.rule ops).permits topic.id = true := by
  rw [admits, h.rule, Bool.and_eq_true, Bool.not_eq_true']

theorem Reflects.delivery? {f : Feed ο} {ops : List (FeedOp ο)} (h : f.Reflects ops)
    (op : FeedOp ο) : ((f.run ops).1.perform op).2.delivery? = f.due ops op := by
  cases op with
  | event e =>
    cases e with
    | data topic sample =>
      show ((f.run ops).1.step (.data topic sample)).2.delivery? = _
      have hadmits := h.admits_iff topic
      unfold step due
      dsimp only
      by_cases ha : (f.run ops).1.admits topic = true
      · rw [if_pos ha, if_pos (hadmits.mp ha), ← h.types, ← h.activation]
        exact Stream.delivery?_dispatch _ topic sample
      · rw [if_neg ha, if_neg (mt hadmits.mpr ha)]
        rfl
    | participantFound | participantLost | endpointFound | endpointLost | schema => rfl
  | route | reload | activateAll | activate | activatePattern | deactivate => rfl

theorem Reflects.ne_untyped {f : Feed ο} {ops : List (FeedOp ο)} (h : f.Reflects ops)
    (op : FeedOp ο) (id : TopicId) : ((f.run ops).1.perform op).2 ≠ .untyped id := by
  cases op with
  | event e =>
    cases e with
    | data topic sample =>
      show ((f.run ops).1.step (.data topic sample)).2 ≠ _
      unfold step
      dsimp only
      split
      · refine Stream.dispatch_ne_untyped (fun id observer ha => ?_) topic sample id
        rw [h.types]
        exact h.armed id observer (h.activation ▸ ha)
      · nofun
    | participantFound | participantLost | endpointFound | endpointLost | schema => nofun
  | route | reload | activateAll | activate | activatePattern | deactivate => nofun

/-- Over any run, the deliveries are those that the operations call for one after the other, and it
never happens that an activated topic lacks its type. -/
theorem deliveries_exact (settings : NetworkSettings) (introspection : Introspection)
    (own : Option (Vector UInt8 12)) (rule : TopicRule) (ops : List (FeedOp ο)) :
    ((start settings introspection own rule : Feed ο).run ops).2 =
        (moments [] ops).filterMap (fun m =>
          (start settings introspection own rule).due m.1 m.2) ∧
      ∀ op id, (((start settings introspection own rule : Feed ο).run ops).1.perform op).2 ≠
        .untyped id := by
  have hreflects := reflects_run (ο := ο) settings introspection own rule
  refine ⟨?_, (hreflects ops).ne_untyped⟩
  induction ops using List.reverseRecOn with
  | nil => rfl
  | append_singleton ops op ih =>
    rw [run_append_singleton, filterMap_moments_append_singleton, ← ih,
      ← (hreflects ops).delivery?]

end Feed

end BusScope
