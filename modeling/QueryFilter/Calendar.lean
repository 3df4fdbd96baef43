/-! # The calendar

Days are numbered from 1970-01-01, in the Gregorian calendar continued in both directions; the year
before 1 is 0.  A `LocalTime` is a date with a time of day, as a clock on the wall shows it, and
`LocalTime.seconds` and `LocalTime.ofSeconds` pass between it and a count of seconds.

Division of integers rounds down here, since all divisors are positive. -/

namespace QueryFilter

/-! ### Years and months -/

/-- The year has a 29th of February. -/
def isLeapYear (year : Int) : Bool :=
  year % 4 == 0 && (year % 100 != 0 || year % 400 == 0)

/-- The lengths of the months of a year. -/
def monthLengths (leap : Bool) : List Nat :=
  [31, if leap then 29 else 28, 31, 30, 31, 30, 31, 31, 30, 31, 30, 31]

/-- The length of the month, from 1 to 12; no other month has a day. -/
def monthLength (year : Int) (month : Nat) : Nat :=
  match month with
  | 0 => 0
  | m + 1 => (monthLengths (isLeapYear year)).getD m 0

/-- The days from the first day of year 0 to the first day of the year. -/
def daysBeforeYear (year : Int) : Int :=
  365 * year + (year + 3) / 4 - (year + 99) / 100 + (year + 399) / 400

/-- The days of the year before the month, from 1 to 12. -/
def daysBeforeMonth (year : Int) (month : Nat) : Nat :=
  ((monthLengths (isLeapYear year)).take (month - 1)).foldl (· + ·) 0

/-- The day number of the first day of year 0, with the sign reversed. -/
def epochDays : Int := 719528

/-- The number of a day. -/
def dayNumber (year : Int) (month day : Nat) : Int :=
  daysBeforeYear year + (daysBeforeMonth year month : Nat) + (day : Nat) - 1 - epochDays

/-- The year of a day that is `days` after the first day of year 0.  The mean length of a year
gives the year or a neighbour of it. -/
def yearOfDays (days : Int) : Int :=
  let guess := days * 400 / 146097
  if days < daysBeforeYear guess then guess - 1
  else if daysBeforeYear (guess + 1) ≤ days then guess + 1
  else guess

/-- The year of a day is the one whose first day is the last not after it. -/
theorem yearOfDays_eq {year days : Int} (h1 : daysBeforeYear year ≤ days)
    (h2 : days < daysBeforeYear (year + 1)) : yearOfDays days = year := by
  have guess : days * 400 / 146097 = year - 1 ∨ days * 400 / 146097 = year ∨
      days * 400 / 146097 = year + 1 := by
    unfold daysBeforeYear at h1 h2
    omega
  unfold yearOfDays
  dsimp only
  rcases guess with h | h | h
  · have h3 : ¬ days < daysBeforeYear (year - 1) := by
      unfold daysBeforeYear at *
      omega
    rw [h, if_neg h3, if_pos (by rw [Int.sub_add_cancel]; exact h1), Int.sub_add_cancel]
  · rw [h, if_neg (by omega), if_neg (by omega)]
  · rw [h, if_pos h2, Int.add_sub_cancel]

/-- The month and the day of the month, from the month on that `lengths` start with, for a day that
is `days` after the first day of that month. -/
def monthAndDay (month : Nat) : List Nat → Nat → Nat × Nat
  | [], days => (month, days + 1)
  | length :: lengths, days =>
    if days < length then (month, days + 1) else monthAndDay (month + 1) lengths (days - length)

/-! ### Local time -/

/-- A date and a time of day. -/
structure LocalTime where
  year : Int := 0
  month : Nat := 1
  day : Nat := 1
  hour : Nat := 0
  minute : Nat := 0
  second : Nat := 0
deriving DecidableEq, Repr, Inhabited

namespace LocalTime

/-- There is such a day and such a time. -/
def isValid (t : LocalTime) : Bool :=
  decide (1 ≤ t.day) && decide (t.day ≤ monthLength t.year t.month) &&
    decide (t.hour < 24) && decide (t.minute < 60) && decide (t.second < 60)

/-- The seconds from the start of 1970. -/
def seconds (t : LocalTime) : Int :=
  dayNumber t.year t.month t.day * 86400 + (t.hour * 3600 + t.minute * 60 + t.second : Nat)

/-- The local time that is so many seconds after the start of 1970. -/
def ofSeconds (seconds : Int) : LocalTime :=
  let days := seconds / 86400 + epochDays
  let clock := (seconds % 86400).toNat
  let year := yearOfDays days
  let (month, day) :=
    monthAndDay 1 (monthLengths (isLeapYear year)) (days - daysBeforeYear year).toNat
  { year, month, day, hour := clock / 3600, minute := clock / 60 % 60, second := clock % 60 }

end LocalTime

end QueryFilter
