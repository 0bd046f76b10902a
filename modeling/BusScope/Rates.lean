import BusScope.SortedMap
import BusScope.Timestamp
import BusScope.Topic

/-!
How often samples arrive on each topic, reckoned from the number of arrivals and the source
timestamps of the first and the last of them.
-/

namespace BusScope

/-- `first` and `last` go by arrival, not by time. -/
structure Arrivals where
  first : Timestamp
  last : Timestamp
  count : UInt64
deriving DecidableEq, Repr

namespace Arrivals

def one (t : Timestamp) : Arrivals := ⟨t, t, 1⟩

def add (a : Arrivals) (t : Timestamp) : Arrivals := { a with last := t, count := a.count + 1 }

/-- Arrivals per second, or their count if the last one is no later than the first. -/
def perSecond (a : Arrivals) : Float :=
  let span := a.last.secondsFloat - a.first.secondsFloat
  let count := a.count.toFloat
  if span ≤ 0 then count else count / span

end Arrivals

abbrev Rates := SortedMap TopicId Arrivals

namespace Rates

def record (r : Rates) (topic : TopicId) (t : Timestamp) : Rates :=
  r.insert topic (match r.find? topic with
    | none => .one t
    | some a => a.add t)

def perSecond (r : Rates) (topic : TopicId) : Float :=
  match r.find? topic with
  | none => 0
  | some a => a.perSecond

def count (r : Rates) (topic : TopicId) : UInt64 :=
  match r.find? topic with
  | none => 0
  | some a => a.count

end Rates

end BusScope
