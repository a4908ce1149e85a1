/-! # Instants as calendar text

An instant counts seconds and microseconds from the start of 1970. Its text is the date and time of day
in the calendar of today carried back to the year one. Days are counted in eras of four hundred years
that begin with March, so that a leap day ends its year. -/

namespace CacheAside
set_option autoImplicit false

structure Instant where
  seconds : Int
  micros : Nat
deriving DecidableEq, Repr

namespace Instant

structure Date where
  year : Int
  month : Nat
  day : Nat
deriving DecidableEq, Repr

/-- The date of a day counted from the first of January 1970. -/
def dateOfDay (days : Int) : Date :=
  let z := days + 719468
  let era := z.fdiv 146097
  let dayOfEra := (z.fmod 146097).toNat
  let yearOfEra := (dayOfEra - dayOfEra / 1460 + dayOfEra / 36524 - dayOfEra / 146096) / 365
  let dayOfYear := dayOfEra - (365 * yearOfEra + yearOfEra / 4 - yearOfEra / 100)
  let fromMarch := (5 * dayOfYear + 2) / 153
  let day := dayOfYear - (153 * fromMarch + 2) / 5 + 1
  let month := if fromMarch < 10 then fromMarch + 3 else fromMarch - 9
  ⟨yearOfEra + era * 400 + (if month ≤ 2 then 1 else 0), month, day⟩

/-- Digits with zeros in front up to a width. -/
def padded (width n : Nat) : String :=
  let digits := Nat.toDigits 10 n
  String.ofList (List.replicate (width - digits.length) '0' ++ digits)

def date (i : Instant) : Date := dateOfDay (i.seconds.fdiv 86400)

/-- Date and time of day; microseconds stand behind a point unless there are none. -/
def reading (i : Instant) : String :=
  let d := i.date
  let second := (i.seconds.fmod 86400).toNat
  padded 4 d.year.toNat ++ "-" ++ padded 2 d.month ++ "-" ++ padded 2 d.day ++ "T" ++
    padded 2 (second / 3600) ++ ":" ++ padded 2 (second / 60 % 60) ++ ":" ++ padded 2 (second % 60) ++
    (if i.micros = 0 then "" else "." ++ padded 6 i.micros)

def text (i : Instant) : String := i.reading ++ "Z"

/-- The reading with its distance from the zero meridian, which is none. -/
def zonedText (i : Instant) : String := i.reading ++ "+00:00"

/-- The seconds since the start of 1970. -/
def stamp (i : Instant) : Float := Float.ofInt (i.seconds * 1000000 + i.micros) / 1000000.0

/-- The instant some seconds earlier, if the calendar still has a date for it. -/
def earlier (i : Instant) (seconds : Nat) : Option Instant :=
  let j : Instant := { i with seconds := i.seconds - seconds }
  if 1 ≤ j.date.year ∧ j.date.year ≤ 9999 then some j else none

end Instant
end CacheAside
