import BusScope.Timestamp

/-!
Calendar time of a timestamp, in universal time and the proleptic Gregorian calendar. Years outside
four digits carry a sign. A timestamp that is no calendar time, because its year is out of range or
because its nanoseconds exceed a second outside a leap second, is written as a number instead.
-/

namespace BusScope.Calendar

structure Date where
  year : Int
  month : Nat
  day : Nat
deriving DecidableEq, Repr

/-- The date that many days after 1 January 1970. Years are counted from March, so that a leap day
is the last day of its year. -/
def Date.ofDays (days : Int) : Date :=
  let z := days + 719468
  let era := z / 146097
  let dayOfEra := (z % 146097).toNat
  let yearOfEra :=
    (dayOfEra - dayOfEra / 1460 + dayOfEra / 36524 - dayOfEra / 146096) / 365
  let dayOfYear := dayOfEra - (365 * yearOfEra + yearOfEra / 4 - yearOfEra / 100)
  let shifted := (5 * dayOfYear + 2) / 153
  let month := if shifted < 10 then shifted + 3 else shifted - 9
  ⟨era * 400 + yearOfEra + (if month ≤ 2 then 1 else 0), month,
    dayOfYear - (153 * shifted + 2) / 5 + 1⟩

def yearText (year : Int) : String :=
  if 0 ≤ year ∧ year ≤ 9999 then Timestamp.padLeft 4 year.toNat
  else (if year < 0 then "-" else "+") ++ Timestamp.padLeft 4 year.natAbs

/-- Nanoseconds beyond a second stand for a leap second, which only the last second of a minute
can have. -/
def format? (t : Timestamp) : Option String :=
  let seconds := t.seconds.toInt
  let date := Date.ofDays (seconds / 86400)
  let clock := (seconds % 86400).toNat
  let nanoseconds := t.nanoseconds.toNat
  let leap := nanoseconds / 1000000000
  if date.year < -262143 ∨ 262142 < date.year then none
  else if 2 ≤ leap ∨ (leap = 1 ∧ clock % 60 ≠ 59) then none
  else
    let two := Timestamp.padLeft 2
    some (yearText date.year ++ "/" ++ two date.month ++ "/" ++ two date.day ++ " " ++
      two (clock / 3600) ++ ":" ++ two (clock / 60 % 60) ++ ":" ++ two (clock % 60 + leap))

def format (t : Timestamp) : String := (format? t).getD t.text

end BusScope.Calendar
