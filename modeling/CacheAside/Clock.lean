import CacheAside.Calendar
import CacheAside.Json.Value
import CacheAside.Number.Rounded

/-! # Setting the clock

The clock is set to so many seconds after the start of 1970, for which the calendar must have a date, and
so many microseconds later or earlier than that. Parts of a microsecond are rounded to the nearest one, and
of two equally near ones to the even one. Seconds made of microseconds are carried. -/

namespace CacheAside
set_option autoImplicit false

/-- Why the clock cannot be set. -/
inductive ClockFault where
  /-- The time is not told in numbers. -/
  | notNumber
  /-- The seconds are more than a machine word holds. -/
  | beyondWords
  /-- The year is more than half a machine word holds. -/
  | beyondYears
  /-- The calendar does not have the year. -/
  | noYear (year : Int)
  /-- The microseconds make more days than half a machine word holds. -/
  | beyondDays
  /-- The microseconds make too many days. -/
  | tooManyDays (days : Int)
  /-- The calendar has no date for seconds and microseconds together. -/
  | noDate
deriving DecidableEq, Repr

namespace ClockFault

def message : ClockFault → String
  | .notNumber => "no number"
  | .beyondWords => "timestamp out of range for platform time_t"
  | .beyondYears => "Value too large for defined data type"
  | .noYear year => "year " ++ toString year ++ " is out of range"
  | .beyondDays => "too many days"
  | .tooManyDays days => "days=" ++ toString days ++ "; must have magnitude <= 999999999"
  | .noDate => "date value out of range"

end ClockFault

namespace Instant

/-- Whether a number stands in so many bits with a sign. -/
def fitsBits (bits : Nat) (n : Int) : Bool := -Int.pow 2 (bits - 1) ≤ n ∧ n < Int.pow 2 (bits - 1)

/-- Seconds and microseconds as an instant. -/
def carry (seconds micros : Int) : Instant :=
  let total := seconds * 1000000 + micros
  ⟨total / 1000000, (total % 1000000).toNat⟩

/-- The instant so many microseconds after so many seconds and what is over of them. -/
def ofParts (seconds : Int) (rest : Nat) (micros : Int) : Except ClockFault Instant := do
  unless fitsBits 64 seconds do throw .beyondWords
  let year := (dateOfDay (seconds.fdiv 86400)).year
  unless fitsBits 32 (year - 1900) do throw .beyondYears
  unless 1 ≤ year ∧ year ≤ 9999 do throw (.noYear year)
  let days := micros.fdiv 86400000000
  unless fitsBits 32 days do throw .beyondDays
  unless days.natAbs ≤ 999999999 do throw (.tooManyDays days)
  let i := carry seconds (rest + micros)
  unless 1 ≤ i.date.year ∧ i.date.year ≤ 9999 do throw .noDate
  return i

/-- A number of microseconds, rounded. -/
def roundedMicros (x : Float) : Option Int :=
  (Decimal.fraction? x).map fun (num, den) =>
    if num < 0 then -(Number.rounded num.natAbs den 0 : Int) else Number.rounded num.natAbs den 0

/-- A number of seconds as whole ones and the microseconds over. -/
def splitSeconds : Json → Except ClockFault (Int × Int)
  | .int n => .ok (n, 0)
  | .bool b => .ok (if b then 1 else 0, 0)
  | .float x =>
    match Decimal.fraction? x with
    | some (num, den) =>
      let whole := num.tdiv den
      .ok (whole, (roundedMicros ((x - Float.ofInt whole) * 1000000.0)).getD 0)
    | none => .error (if x.isNaN then .notNumber else .beyondWords)
  | _ => .error .notNumber

def wholeMicros : Json → Except ClockFault Int
  | .int n => .ok n
  | .bool b => .ok (if b then 1 else 0)
  | .float x => (roundedMicros x).elim (.error .notNumber) .ok
  | _ => .error .notNumber

/-- The instant that is told by seconds and microseconds of any kind. -/
def ofValues (seconds micros : Json) : Except ClockFault Instant := do
  let (whole, rest) ← splitSeconds seconds
  let start := carry whole rest
  ofParts start.seconds start.micros (← wholeMicros micros)

end Instant
end CacheAside
