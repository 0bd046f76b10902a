import BusScope.Fixture
import BusScope.Proofs.Feed.Passage
import BusScope.Proofs.Network.Arrivals

/-! The account of arrivals, told from the operations of a run. A sample counts if its topic is not
reserved and is permitted by the rule in force when it comes. Nothing else about it matters: neither
whether its type is known, nor what it holds, nor what quality of service its topic is announced with. -/

namespace BusScope

universe u

variable {ο : Type u}

namespace Feed

/-- When the operation counts as an arrival on the topic, by what came before it: the time it is
entered with. -/
def arrival? (rule : TopicRule) (id : TopicId) (before : List (FeedOp ο)) :
    FeedOp ο → Option Timestamp
  | .event (.data topic sample) =>
    if topic.id = id ∧ topic.isReserved = false ∧ (ruleInForce rule before).permits id = true then
      some sample.timestamp
    else none
  | _ => none

def arrivals (rule : TopicRule) (id : TopicId) (ops : List (FeedOp ο)) : List Timestamp :=
  (moments [] ops).filterMap fun m => arrival? rule id m.1 m.2

theorem arrivals_append_singleton (rule : TopicRule) (id : TopicId) (ops : List (FeedOp ο))
    (op : FeedOp ο) :
    arrivals rule id (ops ++ [op]) = arrivals rule id ops ++ (arrival? rule id ops op).toList :=
  filterMap_moments_append_singleton (arrival? rule id) ops op

theorem passed_append_singleton (f : Feed ο) (ops : List (FeedOp ο)) (op : FeedOp ο) :
    f.passed (ops ++ [op]) = f.passed ops ++ ((f.run ops).1.passed? op).toList := by
  induction ops generalizing f with
  | nil => simp [passed, run]
  | cons first rest ih => simp only [List.cons_append, passed, run_cons, ih, List.append_assoc]

theorem Reflects.arrival?_passed? {f : Feed ο} {ops : List (FeedOp ο)} (h : f.Reflects ops)
    (id : TopicId) (op : FeedOp ο) :
    ((f.run ops).1.passed? op).bind (NetworkEvent.arrival? id) = arrival? f.rule id ops op := by
  have hannounced : ∀ a : Option Announcement,
      (a.map (·.event)).bind (NetworkEvent.arrival? id) = none := by
    rintro (_ | _ | _) <;> rfl
  cases op with
  | event e =>
    cases e with
    | data topic sample =>
      show (if (f.run ops).1.admits topic then some (NetworkEvent.data topic sample) else none).bind
        _ = _
      by_cases hid : topic.id = id
      · subst hid
        by_cases ha : (f.run ops).1.admits topic = true
        · simp [ha, arrival?, NetworkEvent.arrival?, h.admits_iff topic |>.mp ha]
        · simp [ha, arrival?, mt (h.admits_iff topic).mpr ha]
      · by_cases ha : (f.run ops).1.admits topic = true <;>
          simp [ha, arrival?, NetworkEvent.arrival?, hid]
    | schema t => rfl
    | participantFound | participantLost | endpointFound | endpointLost => exact hannounced _
  | route topic a => exact hannounced _
  | reload | activateAll | activate | activatePattern | deactivate => rfl

theorem filterMap_arrival?_passed (settings : NetworkSettings) (q : Introspection)
    (own : Option (Vector UInt8 12)) (rule : TopicRule) (ops : List (FeedOp ο)) (id : TopicId) :
    ((start settings q own rule : Feed ο).passed ops).filterMap (NetworkEvent.arrival? id) =
      arrivals rule id ops := by
  induction ops using List.reverseRecOn with
  | nil => rfl
  | append_singleton ops op ih =>
    have hlast : (((start settings q own rule).run ops).1.passed? op).bind
        (NetworkEvent.arrival? id) = arrival? rule id ops op :=
      (reflects_run settings q own rule ops).arrival?_passed? id op
    rw [passed_append_singleton, List.filterMap_append, ih, arrivals_append_singleton, ← hlast]
    cases h : ((start settings q own rule).run ops).1.passed? op with
    | none => rfl
    | some e => cases he : NetworkEvent.arrival? id e <;> simp [he]

/-- Of every topic, at any moment of a run, the number of arrivals is kept, as far as 64 bits hold
it, and the times of the first and the last of them. There is an entry only for a topic with an
arrival. -/
theorem arrivals_accounted (settings : NetworkSettings) (q : Introspection)
    (own : Option (Vector UInt8 12)) (rule : TopicRule) (ops : List (FeedOp ο)) (id : TopicId) :
    let rates := ((start settings q own rule : Feed ο).run ops).1.network.rates
    let times := arrivals rule id ops
    rates.count id = .ofNat times.length ∧
    (times.length < 2 ^ 64 → (rates.count id).toNat = times.length) ∧
    (rates.find? id).map (·.first) = times.head? ∧
    (rates.find? id).map (·.last) = times.getLast? := by
  intro rates times
  have hrates : rates.find? id = Arrivals.ofTimes? times := by
    -- The activation has no part in the rates.
    show ((start settings q own rule : Feed ο).run ops).1.network.deactivate.rates.find? id = _
    rw [network_run_start, Network.find?_rates_run, filterMap_arrival?_passed]
  have hcount : rates.count id = .ofNat times.length := by
    rw [Rates.count, hrates]
    cases times <;> rfl
  refine ⟨hcount, fun hfits => ?_, ?_⟩
  · rw [hcount, UInt64.toNat_ofNat_of_lt' hfits]
  · rw [hrates]
    cases times with
    | nil => exact ⟨rfl, rfl⟩
    | cons first rest => exact ⟨rfl, by simp [Arrivals.ofTimes?, List.getLast?_cons]⟩

/-- Of four samples one is not let through. The first comes before its type is known, none decodes,
and the last comes under another quality of service. -/
theorem arrivals_accounted_positions :
    let topic : Topic := ⟨"positions", "Planar", none, {}⟩
    let sample : Int64 → Sample := fun seconds => ⟨[], .zero, .nil, ⟨seconds, 0⟩⟩
    let ops : List (FeedOp Unit) :=
      [.event (.data topic (sample 5)), .event (.schema (Fixture.keyedType "Planar")),
        .event (.data topic (sample 9)), .reload { block := [.ofName "pos*"] },
        .event (.data topic (sample 6)), .reload {},
        .event (.data { topic with qos := .withDepth 3 } (sample 4))]
    let rates := ((start {} .dynamic none {}).run ops).1.network.rates
    arrivals {} topic.id ops = [⟨5, 0⟩, ⟨9, 0⟩, ⟨4, 0⟩] ∧ (rates.count topic.id).toNat = 3 ∧
      (rates.find? topic.id).map (·.first) = some ⟨5, 0⟩ ∧
      (rates.find? topic.id).map (·.last) = some ⟨4, 0⟩ := by
  intro topic sample ops rates
  have htimes : arrivals {} topic.id ops = [⟨5, 0⟩, ⟨9, 0⟩, ⟨4, 0⟩] := by decide +kernel
  obtain ⟨-, hcount, hfirst, hlast⟩ := arrivals_accounted {} .dynamic none {} ops topic.id
  rw [htimes] at hcount hfirst hlast
  exact ⟨htimes, hcount (by decide), hfirst, hlast⟩

end Feed

end BusScope
