import BusScope.Introspection
import BusScope.SortedMap

/-!
The live instances of each topic. A writer keeps an instance alive from its first sample on until
it departs, and an instance that no writer keeps alive is forgotten. A topic holds a limited number
of instances; when it is full, new ones are refused and the others go on.
-/

namespace BusScope

structure Instance where
  keys : String
  writers : SortedMap Guid Unit

structure InstanceId where
  topicName : String
  handle : InstanceHandle
deriving DecidableEq

namespace InstanceId

instance : Ord InstanceId := ⟨compareLex (compareOn (·.topicName)) (compareOn (·.handle))⟩

instance : Std.TransOrd InstanceId :=
  inferInstanceAs
    (Std.TransCmp (compareLex (compareOn InstanceId.topicName) (compareOn InstanceId.handle)))

instance : Std.LawfulEqOrd InstanceId where
  compare_self {a} := by
    show (compare a.topicName a.topicName).then (compare a.handle a.handle) = .eq
    simp
  eq_of_compare {a b} h := by
    have h : (compare a.topicName b.topicName).then (compare a.handle b.handle) = .eq := h
    obtain ⟨h1, h2⟩ := Ordering.then_eq_eq.mp h
    cases a
    cases b
    simp only [mk.injEq]
    exact ⟨Std.LawfulEqOrd.eq_of_compare h1, Std.LawfulEqOrd.eq_of_compare h2⟩

end InstanceId

/-- The keys of a topic are those of the first type seen on it. -/
structure Instances where
  capacity : Nat
  keyNames : SortedMap String (List String) := .empty
  records : SortedMap InstanceId Instance := .empty

namespace Instances

def onTopic (m : Instances) (topicName : String) : List Instance :=
  (m.records.filter fun id _ => id.topicName == topicName).values

def count (m : Instances) (topicName : String) : Nat := (m.onTopic topicName).length

def keyNamesOf (m : Instances) (topicName : String) : List String :=
  (m.keyNames.find? topicName).getD []

def active (m : Instances) (topicName : String) : List String :=
  sortedDistinct (((m.onTopic topicName).filter (!·.writers.isEmpty)).map (·.keys))

def writersOf (m : Instances) (topicName : String) : List Guid :=
  sortedDistinct ((m.onTopic topicName).flatMap (·.writers.keys))

/-- The handle that the sample carries, or else the one that its keys give. -/
def resolve (q : Introspection) (t : DataType) (s : Sample) :
    Except InspectionFault InstanceHandle :=
  if s.handle.isNil && t.isKeyed then q.keyHandle t s else .ok s.handle

def put (m : Instances) (id : InstanceId) (r : Instance) : Instances :=
  { m with records := m.records.insert id r }

/-- Takes in an instance whose keys have yet to be read, with the writer of the sample. -/
def enroll (m : Instances) (q : Introspection) (id : InstanceId) (t : DataType) (s : Sample) :
    Instances × Bool :=
  match q.keyJson t s with
  | .error _ => (m, false)
  | .ok keys =>
    if keys.isEmpty then (m, false)
    else match m.records.find? id with
      | some r => (m.put id ⟨keys, r.writers.insert s.writer ()⟩, true)
      | none =>
        if m.capacity ≤ m.count id.topicName then (m, false)
        else (m.put id ⟨keys, .ofKeys [s.writer]⟩, true)

/-- Counts the writer of the sample among those that keep its instance alive. Says whether it was
accepted: it is not if its keys cannot be read, the topic has none, or a new instance finds no
room. -/
def add (m : Instances) (q : Introspection) (topicName : String) (t : DataType) (s : Sample) :
    Instances × Bool :=
  match resolve q t s with
  | .error _ => (m, false)
  | .ok handle =>
    let m := { m with keyNames := m.keyNames.insertNew topicName (q.keyNames t) }
    let id : InstanceId := ⟨topicName, handle⟩
    if (m.keyNamesOf topicName).isEmpty then (m, false)
    else match m.records.find? id with
      | some r =>
        if r.keys.isEmpty then m.enroll q id t s
        else (m.put id { r with writers := r.writers.insert s.writer () }, true)
      | none =>
        if m.capacity ≤ m.count topicName then (m, false) else m.enroll q id t s

def depart (m : Instances) (writer : Guid) (topicName : String) : Instances :=
  let left := m.records.mapValues fun id r =>
    if id.topicName = topicName then { r with writers := r.writers.erase writer } else r
  { m with records := left.filter fun id r => id.topicName ≠ topicName || !r.writers.isEmpty }

/-- An arrival is implied by the samples of the writer and changes nothing. -/
def writerChanged (m : Instances) (writer : Guid) (topicName : String) (active : Bool) :
    Instances :=
  if active then m else m.depart writer topicName

def clear (m : Instances) : Instances := { capacity := m.capacity }

end Instances

end BusScope
