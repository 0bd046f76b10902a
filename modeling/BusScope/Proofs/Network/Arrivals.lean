import BusScope.Proofs.Network.Run

/-! The rates, told from the samples. Of each topic the first, the last and the number of the
arrivals are kept, and no other topic has a say in it. -/

namespace BusScope

universe u

/-- The account of arrivals at these times, one after the other. -/
def Arrivals.ofTimes? (times : List Timestamp) : Option Arrivals :=
  times.head?.map fun first => ⟨first, times.getLastD first, .ofNat times.length⟩

theorem Arrivals.ofTimes?_append_singleton (times : List Timestamp) (t : Timestamp) :
    ofTimes? (times ++ [t]) = some ((ofTimes? times).elim (.one t) (·.add t)) := by
  cases times with
  | nil => rfl
  | cons first rest =>
    show some (Arrivals.mk first (((first :: rest) ++ [t]).getLastD first) (.ofNat _)) = _
    rw [List.getLastD_concat, List.length_append, UInt64.ofNat_add]
    rfl

def NetworkEvent.arrival? (id : TopicId) : NetworkEvent → Option Timestamp
  | .data topic s => if topic.id = id then some s.timestamp else none
  | _ => none

namespace Network

variable {ο : Type u}

theorem find?_rates_step (n : Network ο) (e : NetworkEvent) (id : TopicId) :
    (n.step e).rates.find? id = match e.arrival? id with
      | none => n.rates.find? id
      | some t => some ((n.rates.find? id).elim (.one t) (·.add t)) := by
  cases e with
  | participant p => rfl
  | endpoint e =>
    show (n.endpointEvent e).rates.find? id = n.rates.find? id
    unfold endpointEvent
    split <;> rfl
  | schema t => rfl
  | data topic s =>
    show (n.rates.record topic.id s.timestamp).find? id = _
    rw [Rates.record, SortedMap.find?_insert, NetworkEvent.arrival?]
    by_cases hid : topic.id = id
    · subst hid
      rw [if_pos rfl, if_pos rfl]
      cases n.rates.find? topic.id <;> rfl
    · rw [if_neg (Ne.symm hid), if_neg hid]

theorem find?_rates_run (settings : NetworkSettings) (q : Introspection)
    (events : List NetworkEvent) (id : TopicId) :
    ((empty settings q : Network ο).run events).rates.find? id =
      Arrivals.ofTimes? (events.filterMap (·.arrival? id)) := by
  induction events using List.reverseRecOn with
  | nil => rfl
  | append_singleton events e ih =>
    rw [run_append_singleton, find?_rates_step, ih, List.filterMap_append]
    cases h : e.arrival? id with
    | none => simp [h]
    | some t => simp [h, Arrivals.ofTimes?_append_singleton]

theorem find?_rates_eq_none {settings : NetworkSettings} {q : Introspection}
    {events : List NetworkEvent} {id : TopicId}
    (h : ∀ topic s, .data topic s ∈ events → topic.id ≠ id) :
    ((empty settings q : Network ο).run events).rates.find? id = none := by
  have harrivals : events.filterMap (·.arrival? id) = [] := by
    refine List.filterMap_eq_nil_iff.mpr fun e he => ?_
    cases e with
    | data topic s => exact if_neg (h topic s he)
    | participant | endpoint | schema => rfl
  rw [find?_rates_run, harrivals]
  rfl

end Network

end BusScope
