import BusScope.Proofs.Instances.Step

/-! Histories of samples, departures and resets, and what they say about who keeps an instance
alive: a writer does from an accepted sample of its on, until it departs or all is reset. -/

namespace BusScope

section Lasts

variable {ε : Type*}

/-- What some event started no later one has ended. Whether an event starts it may depend on those
before. -/
def Lasts (starts : List ε → ε → Prop) (ends : ε → Prop) (events : List ε) : Prop :=
  ∃ before e after, events = before ++ e :: after ∧ starts before e ∧ ∀ later ∈ after, ¬ ends later

variable {starts starts' : List ε → ε → Prop} {ends ends' : ε → Prop} {events : List ε} {e : ε}

theorem not_lasts_nil : ¬ Lasts starts ends [] := by
  intro hs
  obtain ⟨before, e, after, h, -⟩ := hs
  exact absurd h.symm (by simp)

theorem append_cons_eq_append_singleton {before after events : List ε} {e last : ε}
    (h : events ++ [last] = before ++ e :: after) :
    (after = [] ∧ before = events ∧ e = last) ∨
      ∃ middle, after = middle ++ [last] ∧ events = before ++ e :: middle := by
  induction after using List.reverseRecOn with
  | nil =>
    obtain ⟨h1, h2⟩ := List.append_inj' h rfl
    cases h2
    exact .inl ⟨rfl, h1.symm, rfl⟩
  | append_singleton middle x _ =>
    rw [← List.cons_append, ← List.append_assoc] at h
    obtain ⟨h1, h2⟩ := List.append_inj' h rfl
    cases h2
    exact .inr ⟨middle, rfl, h1⟩

theorem lasts_append_singleton : Lasts starts ends (events ++ [e]) ↔
    starts events e ∨ (Lasts starts ends events ∧ ¬ ends e) := by
  constructor
  · intro hs
    obtain ⟨before, first, after, h, hstart, hlater⟩ := hs
    rcases append_cons_eq_append_singleton h with ⟨rfl, rfl, rfl⟩ | ⟨middle, rfl, rfl⟩
    · exact .inl hstart
    · refine .inr ⟨⟨before, first, middle, rfl, hstart, fun x hx => ?_⟩, ?_⟩
      · exact hlater x (List.mem_append_left _ hx)
      · exact hlater e (List.mem_append_right _ (List.mem_singleton_self e))
  · intro hs
    rcases hs with hstart | ⟨⟨before, first, after, rfl, hstart, hlater⟩, hend⟩
    · exact ⟨events, e, [], rfl, hstart, fun x hx => absurd hx List.not_mem_nil⟩
    · refine ⟨before, first, after ++ [e], by simp, hstart, fun x hx => ?_⟩
      rcases List.mem_append.mp hx with hx | hx
      · exact hlater x hx
      · exact (List.mem_singleton.mp hx) ▸ hend

/-- Of two things that end each other when they start, only one can last. -/
theorem Lasts.not_both (h : ∀ before e, starts before e → ends' e ∧ ¬ starts' before e)
    (h' : ∀ before e, starts' before e → ends e) (hs : Lasts starts ends events) :
    ¬ Lasts starts' ends' events := by
  induction events using List.reverseRecOn with
  | nil => exact not_lasts_nil
  | append_singleton events e ih =>
    intro hs'
    rcases lasts_append_singleton.mp hs with hstart | ⟨hlast, hend⟩
    · rcases lasts_append_singleton.mp hs' with hstart' | ⟨-, hend'⟩
      · exact (h events e hstart).2 hstart'
      · exact hend' (h events e hstart).1
    · rcases lasts_append_singleton.mp hs' with hstart' | ⟨hlast', -⟩
      · exact hend (h' events e hstart')
      · exact ih hlast hlast'

end Lasts

inductive InstanceEvent where
  | sample (topicName : String) (type : DataType) (s : Sample)
  | writer (writer : Guid) (topicName : String) (active : Bool)
  | clear

namespace Instances

def step (q : Introspection) (m : Instances) : InstanceEvent → Instances
  | .sample topicName type s => (m.add q topicName type s).1
  | .writer writer topicName active => m.writerChanged writer topicName active
  | .clear => m.clear

def run (q : Introspection) (capacity : Nat) (events : List InstanceEvent) : Instances :=
  events.foldl (step q) { capacity }

/-- The event is a sample of the instance by the writer, and it is accepted. -/
def Starts (q : Introspection) (m : Instances) (e : InstanceEvent) (id : InstanceId) (w : Guid) :
    Prop :=
  ∃ type s, e = .sample id.topicName type s ∧ (m.add q id.topicName type s).2 = true ∧
    resolve q type s = .ok id.handle ∧ s.writer = w

def Ends (e : InstanceEvent) (id : InstanceId) (w : Guid) : Prop :=
  e = .clear ∨ e = .writer w id.topicName false

/-- The writer has had a sample of the instance accepted, and neither a departure of the writer from
the topic nor a reset came later. -/
def Supports (q : Introspection) (capacity : Nat) (events : List InstanceEvent) (id : InstanceId)
    (w : Guid) : Prop :=
  ∃ before e after, events = before ++ e :: after ∧ Starts q (run q capacity before) e id w ∧
    ∀ later ∈ after, ¬ Ends later id w

variable {q : Introspection} {capacity : Nat}

theorem run_append_singleton (events : List InstanceEvent) (e : InstanceEvent) :
    run q capacity (events ++ [e]) = step q (run q capacity events) e := by
  rw [run, List.foldl_append]
  rfl

theorem not_supports_nil {id : InstanceId} {w : Guid} : ¬ Supports q capacity [] id w :=
  not_lasts_nil

theorem supports_append_singleton {events : List InstanceEvent} {e : InstanceEvent}
    {id : InstanceId} {w : Guid} :
    Supports q capacity (events ++ [e]) id w ↔
      Starts q (run q capacity events) e id w ∨
        (Supports q capacity events id w ∧ ¬ Ends e id w) :=
  lasts_append_singleton

/-- The sample is the one that brought the instance to life for the last time: no writer kept it
alive when the sample was accepted, and at any time since some writer has. -/
def Opens (q : Introspection) (capacity : Nat) (events : List InstanceEvent) (id : InstanceId)
    (type : DataType) (s : Sample) : Prop :=
  ∃ before after, events = before ++ .sample id.topicName type s :: after ∧
    ((run q capacity before).add q id.topicName type s).2 = true ∧
    resolve q type s = .ok id.handle ∧ (∀ w, ¬ Supports q capacity before id w) ∧
    ∀ middle rest, after = middle ++ rest →
      ∃ w, Supports q capacity (before ++ .sample id.topicName type s :: middle) id w

theorem Opens.alive {events : List InstanceEvent} {id : InstanceId} {type : DataType} {s : Sample}
    (h : Opens q capacity events id type s) : ∃ w, Supports q capacity events id w := by
  obtain ⟨before, after, rfl, -, -, -, hsince⟩ := h
  exact hsince after [] (List.append_nil after).symm

theorem opens_append_singleton {events : List InstanceEvent} {e : InstanceEvent} {id : InstanceId}
    {type : DataType} {s : Sample} :
    Opens q capacity (events ++ [e]) id type s ↔
      (e = .sample id.topicName type s ∧
        ((run q capacity events).add q id.topicName type s).2 = true ∧
        resolve q type s = .ok id.handle ∧ ∀ w, ¬ Supports q capacity events id w) ∨
      (Opens q capacity events id type s ∧ ∃ w, Supports q capacity (events ++ [e]) id w) := by
  constructor
  · intro ho
    obtain ⟨before, after, h, haccepted, hhandle, hnone, hsince⟩ := ho
    rcases append_cons_eq_append_singleton h with ⟨rfl, rfl, rfl⟩ | ⟨middle, rfl, rfl⟩
    · exact .inl ⟨rfl, haccepted, hhandle, hnone⟩
    · refine .inr ⟨⟨before, middle, rfl, haccepted, hhandle, hnone, fun first rest hm => ?_⟩, ?_⟩
      · exact hsince first (rest ++ [e]) (by rw [hm, List.append_assoc])
      · have hs := hsince (middle ++ [e]) [] (List.append_nil _).symm
        rwa [← List.cons_append, ← List.append_assoc] at hs
  · intro ho
    rcases ho with ⟨rfl, haccepted, hhandle, hnone⟩ |
      ⟨⟨before, after, rfl, haccepted, hhandle, hnone, hsince⟩, halive⟩
    · refine ⟨events, [], rfl, haccepted, hhandle, hnone, fun middle rest hm => ?_⟩
      obtain ⟨rfl, -⟩ := List.append_eq_nil_iff.mp hm.symm
      refine ⟨s.writer, supports_append_singleton.mpr (.inl ?_)⟩
      exact ⟨type, s, rfl, haccepted, hhandle, rfl⟩
    · refine ⟨before, after ++ [e], by simp, haccepted, hhandle, hnone, fun middle rest hm => ?_⟩
      rcases List.eq_nil_or_concat rest with rfl | ⟨init, last, rfl⟩
      · rw [List.append_nil] at hm
        rw [← hm, ← List.cons_append, ← List.append_assoc]
        exact halive
      · rw [List.concat_eq_append, ← List.append_assoc] at hm
        obtain ⟨hinit, -⟩ := List.append_inj' hm rfl
        exact hsince middle init hinit

end Instances

end BusScope
