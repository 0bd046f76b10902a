import BusScope.Glob
import BusScope.Topic

/-!
Filters on topics by name and type, and the rule that says which topics are let through: any when
the allow list is empty, else those that it matches, and never one that the block list matches.
-/

namespace BusScope

/-- A pattern that is absent matches everything. -/
structure TopicFilter where
  name : Option String := none
  typeName : Option String := none
deriving DecidableEq, Repr

namespace TopicFilter

def ofName (pattern : String) : TopicFilter := { name := some pattern }

def isWild (pattern : String) : Bool := pattern.toList.any fun c => c == '*' || c == '?'

def isPattern (f : TopicFilter) : Bool := f.name.any isWild || f.typeName.isSome

def matchesName (f : TopicFilter) (name : String) : Bool := f.name.all (Glob.isMatch · name)

def accepts (f : TopicFilter) (t : TopicId) : Bool :=
  f.matchesName t.name && f.typeName.all (Glob.isMatch · t.typeName)

def toJson (f : TopicFilter) : Json :=
  .object ((f.name.map fun p => ("name", Json.text p)).toList ++
    (f.typeName.map fun p => ("type", Json.text p)).toList)

end TopicFilter

structure TopicRule where
  allow : List TopicFilter := []
  block : List TopicFilter := []
deriving DecidableEq, Repr

def TopicRule.permits (r : TopicRule) (t : TopicId) : Bool :=
  (r.allow.isEmpty || r.allow.any (·.accepts t)) && !r.block.any (·.accepts t)

theorem TopicRule.permits_iff {r : TopicRule} {t : TopicId} :
    r.permits t = true ↔ (r.allow = [] ∨ ∃ f ∈ r.allow, f.accepts t = true) ∧
      ∀ f ∈ r.block, f.accepts t = false := by
  simp [permits]

end BusScope
