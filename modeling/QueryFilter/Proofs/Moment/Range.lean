import Mathlib
import QueryFilter.Document
import QueryFilter.Proofs.Moment.FormatOrder
import QueryFilter.Proofs.Moment.Timestamp
import QueryFilter.Proofs.Token.DateTime

/-! # The range of dates

A year has at most six digits and an offset is below a day (`Moment.InRange`).  Every date that is
read is in this range (`Moment.inRange_of_ofText?`), whatever its format.

Such a date is stored as 64-bit milliseconds without a loss but that of the fraction of the last
millisecond, which is dropped towards 1970 (`Moment.InRange.toInt_ofInt_millis`,
`Moment.abs_millis_sub_lt`), and the order of instants is that of what is stored
(`Moment.millis_le`). -/

namespace QueryFilter

/-! ### The year of a local time -/

/-- A month ends before the next year. -/
theorem daysBeforeMonth_add_le {year : Int} {month : Nat} (h : 0 < monthLength year month) :
    daysBeforeMonth year month + monthLength year month ≤
      (monthLengths (isLeapYear year)).sum := by
  have hmonths : ∀ leap, ∀ m < 12, ((monthLengths leap).take m).foldl (· + ·) 0 +
      (monthLengths leap).getD m 0 ≤ (monthLengths leap).sum := by
    decide
  have hle := month_le_of_monthLength_pos h
  cases month with
  | zero => cases h
  | succ m => exact hmonths (isLeapYear year) m (by omega)

/-- A day belongs to its year. -/
theorem dayNumber_bounds {year : Int} {month day : Nat} (hpos : 1 ≤ day)
    (hle : day ≤ monthLength year month) :
    daysBeforeYear year ≤ dayNumber year month day + epochDays ∧
      dayNumber year month day + epochDays < daysBeforeYear (year + 1) := by
  have hmonth := daysBeforeMonth_add_le (Nat.lt_of_lt_of_le hpos hle)
  rw [daysBeforeYear_succ, dayNumber]
  omega

namespace LocalTime

/-- The year of a valid local time is found again in its seconds. -/
theorem year_ofSeconds {t : LocalTime} (h : t.isValid = true) :
    (ofSeconds t.seconds).year = t.year := by
  obtain ⟨-, -, hhour, hminute, hsecond⟩ := fields_of_isValid h
  simp only [isValid, Bool.and_eq_true, decide_eq_true_eq] at h
  obtain ⟨hfirst, hnext⟩ := dayNumber_bounds h.1.1.1.1 h.1.1.1.2
  have hdays : t.seconds / 86400 = dayNumber t.year t.month t.day := by
    rw [LocalTime.seconds]
    omega
  change yearOfDays (t.seconds / 86400 + epochDays) = t.year
  rw [hdays]
  exact yearOfDays_eq hfirst hnext

/-- A count of seconds is bounded by its year. -/
theorem seconds_bounds {seconds : Int} (hyear : |(ofSeconds seconds).year| ≤ 999999) :
    |seconds| ≤ 40000000000000 := by
  change |yearOfDays (seconds / 86400 + epochDays)| ≤ 999999 at hyear
  obtain ⟨hfirst, hnext⟩ := yearOfDays_bounds (seconds / 86400 + epochDays)
  rw [abs_le] at hyear ⊢
  unfold daysBeforeYear at hfirst hnext
  unfold epochDays at *
  omega

end LocalTime

/-! ### Dates that are read -/

/-- A moment of a year of at most six digits, with an offset below a day. -/
structure Moment.InRange (m : Moment) : Prop where
  year : |m.localTime.year| ≤ 999999
  offset : m.offset.natAbs < 86400

section years
variable {cs rest : List Char} {n : Nat}

theorem takeDigits?_lt {width : Nat} (h : takeDigits? width cs = some (n, rest)) :
    n < 10 ^ width := by
  rw [takeDigits?] at h
  split at h
  · next hdigits =>
    cases h
    have hlt := digitsValue_lt (List.all_eq_true.mp hdigits.2)
    rwa [hdigits.1] at hlt
  · cases h

namespace LayoutPart

theorem length_digitRun_le (limit : Nat) (cs : List Char) :
    (digitRun limit cs).length ≤ limit := by
  fun_induction digitRun limit cs with
  | case1 => exact Nat.le_refl 0
  | case2 => exact Nat.zero_le _
  | case3 limit c cs hc ih => exact Nat.succ_le_succ ih
  | case4 => exact Nat.zero_le _

theorem readLongYear?_lt (h : readLongYear? cs = some (n, rest)) : n < 10 ^ 6 := by
  rw [readLongYear?] at h
  split at h
  · cases h
    exact (digitsValue_lt (digitRun_spec 6 cs).2).trans_le
      (Nat.pow_le_pow_right (by decide) (length_digitRun_le 6 cs))
  · cases h

theorem readYear?_abs_le {year : Int} (h : readYear? cs = some (year, rest)) :
    |year| ≤ 999999 := by
  have hnat {n : Nat} (hn : n < 10 ^ 6) : |(n : Int)| ≤ 999999 := by
    rw [Nat.abs_cast]
    omega
  unfold readYear? at h
  split at h
  all_goals
    obtain ⟨⟨n, rest'⟩, hread, hyear⟩ := Option.map_eq_some_iff.mp h
    cases hyear
  · exact hnat (readLongYear?_lt hread)
  · rw [abs_neg]
    exact hnat (readLongYear?_lt hread)
  · exact hnat ((takeDigits?_lt hread).trans (by decide))

/-- No part but the year sets the year. -/
theorem read?_year {part : LayoutPart} {t t' : LocalTime} (ht : |t.year| ≤ 999999)
    (h : part.read? t cs = some (t', rest)) : |t'.year| ≤ 999999 := by
  cases part with
  | year =>
      obtain ⟨⟨year, rest'⟩, hread, heq⟩ := Option.map_eq_some_iff.mp h
      cases heq
      exact readYear?_abs_le hread
  | mark c | month | day | hour | minute | second =>
      obtain ⟨_, -, heq⟩ := Option.map_eq_some_iff.mp h
      cases heq
      exact ht

end LayoutPart

theorem Layout.take?_year {layout : Layout} {t t' : LocalTime} (ht : |t.year| ≤ 999999)
    (h : layout.take? t cs = some (t', rest)) : |t'.year| ≤ 999999 := by
  induction layout generalizing t cs with
  | nil =>
      cases h
      exact ht
  | cons part parts ih =>
      obtain ⟨⟨t'', more⟩, hpart, hparts⟩ := Option.bind_eq_some_iff.mp h
      exact ih (LayoutPart.read?_year ht hpart) hparts

end years

/-- A date in a fixed layout is in UTC. -/
theorem Layout.inRange_of_read? {layout : Layout} {cs : List Char} {m : Moment}
    (h : layout.read? cs = some m) : m.InRange := by
  obtain ⟨t, htake, hvalid, rfl⟩ := Layout.read?_eq_some_iff.mp h
  have hlocal : (Moment.ofUtc t).localTime = LocalTime.ofSeconds t.seconds :=
    congrArg LocalTime.ofSeconds (Int.add_zero t.seconds)
  refine ⟨?_, show (0 : Int).natAbs < 86400 by decide⟩
  rw [hlocal, LocalTime.year_ofSeconds hvalid]
  exact Layout.take?_year (by decide) htake

namespace Timestamp
variable {cs : List Char} {m : Moment}

/-- A sixtieth second does not move the date. -/
theorem moment?_year {t : LocalTime} {nanos : Nat} {offset : Int}
    (h : moment? t nanos offset = some m) : m.localTime.year = t.year := by
  have hyear {t : LocalTime} {nanos : Nat} {hlt : nanos < 1000000000} (hvalid : t.isValid = true) :
      (Moment.mk (t.seconds - offset) nanos offset hlt).localTime.year = t.year := by
    rw [Moment.localTime, Int.sub_add_cancel]
    exact LocalTime.year_ofSeconds hvalid
  rw [moment?] at h
  split at h
  · dsimp only at h
    split at h
    · next hvalid =>
      cases h
      exact hyear (Bool.and_eq_true_iff.mp hvalid).1
    · cases h
  · split at h
    · next hvalid =>
      cases h
      exact hyear hvalid.1
    · cases h

theorem inRange_of_read? (h : read? cs = some m) : m.InRange := by
  refine ⟨?_, (read?_isWholeOffset h).2⟩
  rw [read?_eq (startsWithSign_of_read? h)] at h
  obtain ⟨⟨date, _⟩, hdate, h⟩ := Option.bind_eq_some_iff.mp h
  obtain ⟨_, -, h⟩ := Option.bind_eq_some_iff.mp h
  obtain ⟨⟨t, _⟩, hclock, h⟩ := Option.bind_eq_some_iff.mp h
  obtain ⟨⟨_, _⟩, -, h⟩ := Option.bind_eq_some_iff.mp h
  obtain ⟨_, -, h⟩ := Option.bind_eq_some_iff.mp h
  rw [moment?_year h]
  exact Layout.take?_year (Layout.take?_year (by decide) hdate) hclock

end Timestamp

/-- All dates that are read are in the range of years and offsets. -/
theorem Moment.inRange_of_ofText? {text : String} {m : Moment} (h : Moment.ofText? text = some m) :
    m.InRange := by
  obtain ⟨format, hformat, hread⟩ := List.exists_of_findSome?_eq_some h
  simp only [dateFormats, List.mem_cons, List.not_mem_nil, or_false] at hformat
  rcases hformat with rfl | rfl | rfl | rfl | rfl | rfl | rfl
  · exact Timestamp.inRange_of_read? hread
  all_goals exact Layout.inRange_of_read? hread

/-! ### Milliseconds -/

namespace Moment
variable {m n : Moment}

/-- What is dropped is less than a millisecond, before 1970 and after. -/
theorem abs_millis_sub_lt (m : Moment) : |m.millis * 1000000 - m.instant| < 1000000 := by
  have hdivision := Int.tdiv_mul_add_tmod m.instant 1000000
  have hlt := Int.tmod_lt_of_pos m.instant (show (0 : Int) < 1000000 by decide)
  have hgt := Int.lt_tmod_of_pos m.instant (show (0 : Int) < 1000000 by decide)
  rw [millis, abs_lt]
  omega

theorem millis_mul_eq (h : 1000000 ∣ m.instant) : m.millis * 1000000 = m.instant :=
  Int.tdiv_mul_cancel h

theorem millis_le (h : m.instant ≤ n.instant) : m.millis ≤ n.millis :=
  Int.tdiv_le_tdiv (by decide) h

theorem InRange.abs_millis_le (h : m.InRange) : |m.millis| ≤ 50000000000000000 := by
  have hseconds := abs_le.mp (LocalTime.seconds_bounds h.year)
  have hoffset := h.offset
  have hnanos := m.nanos_lt
  have hmillis := abs_lt.mp m.abs_millis_sub_lt
  rw [instant] at hmillis
  rw [abs_le]
  omega

/-- The milliseconds of a date in range fit into 64 bits. -/
theorem InRange.toInt_ofInt_millis (h : m.InRange) : (Int64.ofInt m.millis).toInt = m.millis := by
  have hmillis := abs_le.mp h.abs_millis_le
  exact Int64.toInt_ofInt_of_le (by omega) (by omega)

end Moment

end QueryFilter
