import QueryFilter.Calendar
import QueryFilter.Number.Decimal

/-! # Moments

A moment is an instant with the offset from UTC it was written with.  This module holds the type,
its conversion to the milliseconds that a document stores, and the timestamp format

    YYYY-MM-DDThh:mm:ss[.fraction](Z|±hh:mm)

in which moments are written and read. -/

namespace QueryFilter

/-- An instant, with an offset from UTC. -/
structure Moment where
  /-- The seconds from the start of 1970 in UTC, rounded down. -/
  seconds : Int
  /-- The nanoseconds since that second. -/
  nanos : Nat
  /-- How many seconds the clock on the wall is ahead of UTC. -/
  offset : Int
  nanos_lt : nanos < 1000000000
deriving DecidableEq, Repr

namespace Moment

/-- The nanoseconds from the start of 1970 in UTC. -/
def instant (m : Moment) : Int := m.seconds * 1000000000 + (m.nanos : Nat)

/-- The milliseconds from the start of 1970, rounded towards it. -/
def millis (m : Moment) : Int := m.instant.tdiv 1000000

/-- The moment so many milliseconds after the start of 1970, in UTC. -/
def ofMillis (millis : Int) : Moment :=
  ⟨millis / 1000, (millis % 1000).toNat * 1000000, 0, by omega⟩

/-- The moment of a local time without a fraction, in UTC. -/
def ofUtc (t : LocalTime) : Moment := ⟨t.seconds, 0, 0, by decide⟩

/-- What the clock on the wall shows. -/
def localTime (m : Moment) : LocalTime := LocalTime.ofSeconds (m.seconds + m.offset)

end Moment

/-! ### Digits of fixed width -/

/-- The last `width` decimal digits of a number. -/
def paddedDigits : Nat → Nat → List Char
  | 0, _ => []
  | width + 1, n => paddedDigits width (n / 10) ++ [Nat.digitChar (n % 10)]

/-- Takes exactly `width` digits off a text: their value and the rest. -/
def takeDigits? (width : Nat) (cs : List Char) : Option (Nat × List Char) :=
  let digits := cs.take width
  if digits.length = width ∧ digits.all Char.isDigit then
    some (digitsValue digits, cs.drop width)
  else none

/-- Takes one character off a text. -/
def takeMark? (mark : Char) : List Char → Option (List Char)
  | [] => none
  | c :: cs => if c = mark then some cs else none

namespace Timestamp

/-! ### Writing -/

/-- The fraction of a second, without trailing zeros; nothing if it is zero. -/
def fractionText (nanos : Nat) : List Char :=
  if nanos = 0 then []
  else '.' :: ((paddedDigits 9 nanos).reverse.dropWhile (· == '0')).reverse

/-- The offset in hours and minutes; `Z` if it is zero. -/
def offsetText (offset : Int) : List Char :=
  if offset = 0 then ['Z']
  else
    (if offset < 0 then '-' else '+') ::
      (paddedDigits 2 (offset.natAbs / 3600) ++ ':' ::
        paddedDigits 2 (offset.natAbs / 60 % 60))

/-- The moment as a timestamp.  There is none if the local year has not four digits, or if the
offset is not a number of minutes below a day. -/
def write? (m : Moment) : Option String :=
  let t := m.localTime
  if 0 ≤ t.year ∧ t.year ≤ 9999 ∧ m.offset.natAbs % 60 = 0 ∧ m.offset.natAbs < 86400 then
    some (String.ofList
      (paddedDigits 4 t.year.toNat ++ '-' :: (paddedDigits 2 t.month ++ '-' ::
        (paddedDigits 2 t.day ++ 'T' :: (paddedDigits 2 t.hour ++ ':' ::
          (paddedDigits 2 t.minute ++ ':' :: (paddedDigits 2 t.second ++
            (fractionText m.nanos ++ offsetText m.offset))))))))
  else none

/-! ### Reading -/

/-- The nanoseconds of a fraction; digits after the ninth are dropped. -/
def nanosOf (digits : List Char) : Nat :=
  let kept := digits.take 9
  digitsValue kept * Nat.pow 10 (9 - kept.length)

/-- An optional fraction of a second: the nanoseconds and the rest. -/
def readFraction? : List Char → Option (Nat × List Char)
  | '.' :: cs =>
    let digits := cs.takeWhile Char.isDigit
    if digits.isEmpty then none else some (nanosOf digits, cs.dropWhile Char.isDigit)
  | cs => some (0, cs)

/-- The hours and minutes of an offset, which end the text, in seconds. -/
def readOffsetClock? (cs : List Char) : Option Nat := do
  let (hours, cs) ← takeDigits? 2 cs
  let cs ← takeMark? ':' cs
  let (minutes, cs) ← takeDigits? 2 cs
  if cs.isEmpty && decide (hours < 24) && decide (minutes < 60) then
    some (hours * 3600 + minutes * 60)
  else none

/-- The offset that ends the text, in seconds. -/
def readOffset? : List Char → Option Int
  | ['Z'] => some 0
  | ['z'] => some 0
  | '+' :: cs => (readOffsetClock? cs).map fun seconds => (seconds : Int)
  | '-' :: cs => (readOffsetClock? cs).map fun seconds => -(seconds : Int)
  | _ => none

/-- Takes the character between date and time off the text: any character of the ASCII range. -/
def takeSeparator? : List Char → Option (List Char)
  | [] => none
  | c :: cs => if c.toNat < 128 then some cs else none

/-- The last second before midnight at the end of a month. -/
def endsMonth (t : LocalTime) : Bool :=
  t.day == monthLength t.year t.month && t.hour == 23 && t.minute == 59 && t.second == 59

/-- The moment at a local time, `nanos` after the second, with an offset.  A sixtieth second is the
last nanosecond of the second before it, and there is one only at the end of a month in UTC. -/
def moment? (t : LocalTime) (nanos : Nat) (offset : Int) : Option Moment :=
  if t.second = 60 then
    let t := { t with second := 59 }
    let seconds := t.seconds - offset
    if t.isValid && endsMonth (LocalTime.ofSeconds seconds) then
      some ⟨seconds, 999999999, offset, by decide⟩
    else none
  else if h : t.isValid ∧ nanos < 1000000000 then some ⟨t.seconds - offset, nanos, offset, h.2⟩
  else none

/-- Reads a timestamp that is all of the text. -/
def read? (cs : List Char) : Option Moment := do
  let (year, cs) ← takeDigits? 4 cs
  let cs ← takeMark? '-' cs
  let (month, cs) ← takeDigits? 2 cs
  let cs ← takeMark? '-' cs
  let (day, cs) ← takeDigits? 2 cs
  let cs ← takeSeparator? cs
  let (hour, cs) ← takeDigits? 2 cs
  let cs ← takeMark? ':' cs
  let (minute, cs) ← takeDigits? 2 cs
  let cs ← takeMark? ':' cs
  let (second, cs) ← takeDigits? 2 cs
  let (nanos, cs) ← readFraction? cs
  let offset ← readOffset? cs
  moment? { year := (year : Int), month, day, hour, minute, second } nanos offset

end Timestamp

end QueryFilter
