import BusScope.Json

/-!
Topics and the quality of service that their endpoints announce. A topic is identified by its name
and its type name; everything else about it only travels along.
-/

namespace BusScope

inductive Reliability where
  | bestEffort
  | reliable
deriving DecidableEq, Repr

inductive Durability where
  | volatile
  | transientLocal
  | transient
  | persistent
deriving DecidableEq, Repr

inductive History where
  | keepLast (depth : UInt32)
  | keepAll
deriving DecidableEq, Repr

def Reliability.text : Reliability → String
  | .bestEffort => "best-effort"
  | .reliable => "reliable"

def Durability.text : Durability → String
  | .volatile => "volatile"
  | .transientLocal => "transient-local"
  | .transient => "transient"
  | .persistent => "persistent"

namespace History

def defaultDepth : UInt32 := 5000

def text : History → String
  | .keepLast depth => "keep-last(" ++ toString depth.toNat ++ ")"
  | .keepAll => "keep-all"

def toJson : History → Json
  | .keepLast depth => .object [("keep-last", .nat depth.toNat)]
  | .keepAll => .text "keep-all"

end History

structure Qos where
  reliability : Reliability := .bestEffort
  durability : Durability := .volatile
  history : History := .keepLast History.defaultDepth
  keyed : Bool := false
deriving DecidableEq, Repr

namespace Qos

def withDepth (depth : UInt32) : Qos := { history := .keepLast depth }

def toJson (q : Qos) : Json :=
  .object [("reliability", .text q.reliability.text), ("durability", .text q.durability.text),
    ("history", q.history.toJson), ("keyed", .bool q.keyed)]

end Qos

structure TopicId where
  name : String
  typeName : String
deriving DecidableEq, Repr

namespace TopicId

instance : Ord TopicId := ⟨compareLex (compareOn (·.name)) (compareOn (·.typeName))⟩

instance : Std.TransOrd TopicId :=
  inferInstanceAs (Std.TransCmp (compareLex (compareOn TopicId.name) (compareOn TopicId.typeName)))

instance : Std.LawfulEqOrd TopicId where
  compare_self {a} := by
    show (compare a.name a.name).then (compare a.typeName a.typeName) = .eq
    simp
  eq_of_compare {a b} h := by
    have h : (compare a.name b.name).then (compare a.typeName b.typeName) = .eq := h
    obtain ⟨h1, h2⟩ := Ordering.then_eq_eq.mp h
    cases a
    cases b
    simp only [mk.injEq]
    exact ⟨Std.LawfulEqOrd.eq_of_compare h1, Std.LawfulEqOrd.eq_of_compare h2⟩

def text (t : TopicId) : String := t.name ++ " [" ++ t.typeName ++ "]"

end TopicId

/-- `discriminator` is set on the topics reserved for discovery data. -/
structure Topic where
  name : String
  typeName : String
  discriminator : Option String := none
  qos : Qos := {}
deriving DecidableEq, Repr

namespace Topic

def id (t : Topic) : TopicId := ⟨t.name, t.typeName⟩

def text (t : Topic) : String := t.id.text

def toJson (t : Topic) : Json :=
  .object ([("name", .text t.name), ("type_name", .text t.typeName)] ++
    (t.discriminator.map fun d => ("internal_discriminator", Json.text d)).toList ++
    [("qos", t.qos.toJson)])

end Topic

end BusScope
