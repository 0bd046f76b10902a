import BusScope.Proofs.Streaming.Exactness

/-! Calls on a stream by itself, in any order, while types are registered and registered again. A
topic is activated only when its type is known, and no type is ever forgotten, so that a sample on an
activated topic always finds its type; an activation that is refused leaves everything as it was. -/

namespace BusScope

universe u

inductive StreamCall (ο : Type u) where
  | register (t : DataType)
  | activateAll (observer : ο)
  | activate (id : TopicId) (observer : ο)
  | activatePattern (topics : List TopicId) (filter : TopicFilter) (observer : ο)
  | deactivate
  | data (topic : Topic) (sample : Sample)

inductive StreamAnswer (ο : Type u) where
  | done
  | activated
  | refused
  | dispatched (d : Dispatch ο)

variable {ο : Type u}

def StreamCall.type? : StreamCall ο → Option DataType
  | .register t => some t
  | _ => none

theorem TypeCatalog.knows_register {c : TypeCatalog} {t : DataType} {name : String} :
    (c.register t).knows name = true ↔ name = t.name ∨ c.knows name = true :=
  SortedMap.contains_insert

namespace Stream

def orRefuse (s : Stream ο) : Option (Stream ο) → Stream ο × StreamAnswer ο
  | some next => (next, .activated)
  | none => (s, .refused)

def perform (s : Stream ο) : StreamCall ο → Stream ο × StreamAnswer ο
  | .register t => (s.register t, .done)
  | .activateAll observer => (s.activateAll observer, .activated)
  | .activate id observer => s.orRefuse (s.activate? id observer)
  | .activatePattern topics filter observer =>
    s.orRefuse (s.activatePattern? topics filter observer)
  | .deactivate => (s.deactivate, .done)
  | .data topic sample => (s, .dispatched (s.dispatch topic sample))

def run (s : Stream ο) : List (StreamCall ο) → Stream ο × List (StreamAnswer ο)
  | [] => (s, [])
  | call :: rest =>
    let (next, answer) := s.perform call
    let (last, answers) := next.run rest
    (last, answer :: answers)

theorem run_cons (s : Stream ο) (call : StreamCall ο) (rest : List (StreamCall ο)) :
    s.run (call :: rest) = (((s.perform call).1.run rest).1,
      (s.perform call).2 :: ((s.perform call).1.run rest).2) :=
  rfl

def Armed (s : Stream ο) : Prop :=
  ∀ id observer, s.activation = .topic id observer → s.types.knows id.typeName = true

theorem perform_activate_cases (s : Stream ο) (id : TopicId) (observer : ο) :
    s.types.knows id.typeName = true ∧
      s.perform (.activate id observer) = ({ s with activation := .topic id observer }, .activated) ∨
    s.types.knows id.typeName = false ∧ s.perform (.activate id observer) = (s, .refused) := by
  by_cases h : s.types.knows id.typeName = true
  · exact .inl ⟨h, by simp [perform, activate?, orRefuse, h]⟩
  · exact .inr ⟨by simpa using h, by simp [perform, activate?, orRefuse, h]⟩

theorem perform_activatePattern_cases (s : Stream ο) (topics : List TopicId) (filter : TopicFilter)
    (observer : ο) :
    (∃ id ∈ topics, filter.accepts id = true ∧ s.types.knows id.typeName = true) ∧
      s.perform (.activatePattern topics filter observer) =
        ({ s with activation := .pattern filter observer }, .activated) ∨
    (∀ id ∈ topics, filter.accepts id = true → s.types.knows id.typeName = false) ∧
      s.perform (.activatePattern topics filter observer) = (s, .refused) := by
  by_cases h : ∃ id ∈ topics, filter.accepts id = true ∧ s.types.knows id.typeName = true
  · exact .inl ⟨h, by simp [perform, activatePattern?, orRefuse, h]⟩
  · refine .inr ⟨?_, by simp [perform, activatePattern?, orRefuse, h]⟩
    simpa using h

theorem armed_perform {s : Stream ο} (hs : s.Armed) (call : StreamCall ο) :
    (s.perform call).1.Armed := by
  intro id observer h
  cases call with
  | register t => exact TypeCatalog.knows_register.mpr (.inr (hs id observer h))
  | activateAll observer' => cases h
  | activate id' observer' =>
    rcases s.perform_activate_cases id' observer' with ⟨hknown, he⟩ | ⟨-, he⟩
    · rw [he] at h ⊢
      cases h
      exact hknown
    · rw [he] at h ⊢
      exact hs id observer h
  | activatePattern topics filter observer' =>
    rcases s.perform_activatePattern_cases topics filter observer' with ⟨-, he⟩ | ⟨-, he⟩
    · rw [he] at h
      cases h
    · rw [he] at h ⊢
      exact hs id observer h
  | deactivate => cases h
  | data topic sample => exact hs id observer h

theorem armed_run {s : Stream ο} (hs : s.Armed) (calls : List (StreamCall ο)) :
    (s.run calls).1.Armed := by
  induction calls generalizing s with
  | nil => exact hs
  | cons call rest ih => exact ih (armed_perform hs call)

theorem orRefuse_ne_dispatched (s : Stream ο) (next : Option (Stream ο)) (d : Dispatch ο) :
    (s.orRefuse next).2 ≠ .dispatched d := by
  cases next <;> nofun

theorem Armed.perform_ne_untyped {s : Stream ο} (hs : s.Armed) (call : StreamCall ο)
    (id : TopicId) : (s.perform call).2 ≠ .dispatched (.untyped id) := by
  cases call with
  | activate | activatePattern => exact s.orRefuse_ne_dispatched _ _
  | data topic sample =>
    intro h
    exact dispatch_ne_untyped hs topic sample id (StreamAnswer.dispatched.inj h)
  | register | activateAll | deactivate => nofun

theorem Armed.run_ne_untyped {s : Stream ο} (hs : s.Armed) (calls : List (StreamCall ο))
    (id : TopicId) : .dispatched (.untyped id) ∉ (s.run calls).2 := by
  induction calls generalizing s with
  | nil => exact List.not_mem_nil
  | cons call rest ih =>
    rw [run_cons]
    intro h
    rcases List.mem_cons.mp h with h | h
    · exact hs.perform_ne_untyped call id h.symm
    · exact ih (armed_perform hs call) h

theorem orRefuse_of_refused {s : Stream ο} {next : Option (Stream ο)}
    (h : (s.orRefuse next).2 = .refused) : (s.orRefuse next).1 = s := by
  cases next with
  | none => rfl
  | some next => cases h

theorem perform_of_refused {s : Stream ο} {call : StreamCall ο}
    (h : (s.perform call).2 = .refused) : (s.perform call).1 = s := by
  cases call with
  | activate | activatePattern => exact orRefuse_of_refused h
  | register | activateAll | deactivate | data => cases h

theorem types_perform (s : Stream ο) (call : StreamCall ο) :
    (s.perform call).1.types = call.type?.elim s.types s.types.register := by
  cases call with
  | activate id observer =>
    rcases s.perform_activate_cases id observer with ⟨-, he⟩ | ⟨-, he⟩ <;> rw [he] <;> rfl
  | activatePattern topics filter observer =>
    rcases s.perform_activatePattern_cases topics filter observer with ⟨-, he⟩ | ⟨-, he⟩ <;>
      rw [he] <;> rfl
  | register | activateAll | deactivate | data => rfl

theorem knows_run (s : Stream ο) (calls : List (StreamCall ο)) (name : String) :
    (s.run calls).1.types.knows name = true ↔
      s.types.knows name = true ∨ ∃ t ∈ calls.filterMap (·.type?), t.name = name := by
  induction calls generalizing s with
  | nil => simp [run]
  | cons call rest ih =>
    rw [run_cons, ih, types_perform]
    cases h : call.type? with
    | none => simp [h]
    | some t =>
      have hknows : (s.types.register t).knows name = true ↔
          t.name = name ∨ s.types.knows name = true := by
        rw [TypeCatalog.knows_register, eq_comm]
      show (s.types.register t).knows name = true ∨ _ ↔ _
      rw [hknows, List.filterMap_cons_some h, List.exists_mem_cons_iff]
      tauto

/-- After any calls, with whatever types to begin with: the type of a topic that is activated is
known; no sample was ever found to lack its type; a call that is refused changes nothing; and what
is refused are exactly the activations that no type registered so far makes ready. -/
theorem activated_topics_are_typed (types : TypeCatalog) (calls : List (StreamCall ο)) :
    let start : Stream ο := { types := types }
    let s := (start.run calls).1
    (∀ id observer, s.activation = .topic id observer → s.types.knows id.typeName = true) ∧
    (∀ id, .dispatched (.untyped id) ∉ (start.run calls).2) ∧
    (∀ call, (s.perform call).2 = .refused → (s.perform call).1 = s) ∧
    (∀ id observer, (s.perform (.activate id observer)).2 = .refused ↔
      s.types.knows id.typeName = false) ∧
    (∀ topics filter observer, (s.perform (.activatePattern topics filter observer)).2 = .refused ↔
      ∀ id ∈ topics, filter.accepts id = true → s.types.knows id.typeName = false) ∧
    ∀ name, s.types.knows name = true ↔
      types.knows name = true ∨ ∃ t ∈ calls.filterMap (·.type?), t.name = name := by
  intro start s
  have hstart : start.Armed := nofun
  refine ⟨armed_run hstart calls, hstart.run_ne_untyped calls, fun call => perform_of_refused,
    fun id observer => ?_, fun topics filter observer => ?_, start.knows_run calls⟩
  · rcases s.perform_activate_cases id observer with ⟨hknown, he⟩ | ⟨hunknown, he⟩
    · simp [he, hknown]
    · simp [he, hunknown]
  · rcases s.perform_activatePattern_cases topics filter observer with ⟨hready, he⟩ | ⟨hnone, he⟩
    · obtain ⟨id, hmem, hfit, hknown⟩ := hready
      rw [he]
      refine iff_of_false nofun fun h => ?_
      rw [h id hmem hfit] at hknown
      cases hknown
    · rw [he]
      exact iff_of_true rfl hnone

end Stream

end BusScope
