import Mathlib
import QueryFilter.Calendar

/-! # Days and seconds

Every count of seconds is a valid local time, and the local time gives the count back
(`LocalTime.seconds_ofSeconds`, `LocalTime.isValid_ofSeconds`). -/

namespace QueryFilter

/-- The day lies in the year that is found for it. -/
theorem yearOfDays_bounds (days : Int) :
    daysBeforeYear (yearOfDays days) ≤ days ∧ days < daysBeforeYear (yearOfDays days + 1) := by
  unfold yearOfDays
  dsimp only
  split
  · next h =>
    rw [Int.sub_add_cancel]
    refine ⟨?_, h⟩
    unfold daysBeforeYear
    omega
  split
  · next h h' =>
    unfold daysBeforeYear at *
    omega
  · next h h' =>
    unfold daysBeforeYear at *
    omega

theorem isLeapYear_iff {year : Int} :
    isLeapYear year = true ↔ year % 4 = 0 ∧ (year % 100 ≠ 0 ∨ year % 400 = 0) := by
  simp [isLeapYear]

theorem sum_monthLengths (leap : Bool) :
    (monthLengths leap).sum = if leap then 366 else 365 := by
  cases leap <;> rfl

/-- The next year starts after all months of a year. -/
theorem daysBeforeYear_succ (year : Int) :
    daysBeforeYear (year + 1) =
      daysBeforeYear year + ((monthLengths (isLeapYear year)).sum : Nat) := by
  rw [sum_monthLengths]
  cases h : isLeapYear year with
  | true =>
      rw [isLeapYear_iff] at h
      unfold daysBeforeYear
      simp only [if_true]
      omega
  | false =>
      have h : ¬ (year % 4 = 0 ∧ (year % 100 ≠ 0 ∨ year % 400 = 0)) := by
        rw [← isLeapYear_iff, h]
        simp
      unfold daysBeforeYear
      simp only [Bool.false_eq_true, if_false]
      omega

/-- A day among months of the given lengths: the months before it, its own month, and how far into
that month it is. -/
theorem monthAndDay_eq {lengths : List Nat} (month : Nat) {days : Nat} (h : days < lengths.sum) :
    ∃ before length after, lengths = before ++ length :: after ∧
      (monthAndDay month lengths days).1 = month + before.length ∧
      before.sum + (monthAndDay month lengths days).2 = days + 1 ∧
      1 ≤ (monthAndDay month lengths days).2 ∧ (monthAndDay month lengths days).2 ≤ length := by
  induction lengths generalizing month days with
  | nil => simp at h
  | cons first lengths ih =>
      rw [monthAndDay]
      split
      · next hlt => exact ⟨[], first, lengths, rfl, rfl, by simp, by simp, hlt⟩
      · next hge =>
        rw [List.sum_cons] at h
        obtain ⟨before, length, after, rfl, hmonth, hday, hpos, hle⟩ :=
          ih (month + 1) (show days - first < lengths.sum by omega)
        refine ⟨first :: before, length, after, rfl, ?_, ?_, hpos, hle⟩
        · rw [hmonth, List.length_cons]
          omega
        · rw [List.sum_cons]
          omega

/-- The month that stands after the months `before` in a year, and the days before it. -/
theorem month_of_lengths {year : Int} {before after : List Nat} {length : Nat}
    (h : monthLengths (isLeapYear year) = before ++ length :: after) :
    monthLength year (1 + before.length) = length ∧
      daysBeforeMonth year (1 + before.length) = before.sum := by
  have hmonth : 1 + before.length - 1 = before.length := by omega
  constructor
  · rw [Nat.add_comm, monthLength, h]
    simp
  · rw [daysBeforeMonth, h, hmonth, List.take_left, List.sum_eq_foldl]

/-- A day of a year, counted from the first day of year 0, is found again by its number. -/
theorem dayNumber_monthAndDay {year days : Int} {month day : Nat}
    (hfirst : daysBeforeYear year ≤ days) (hnext : days < daysBeforeYear (year + 1))
    (hdate : monthAndDay 1 (monthLengths (isLeapYear year)) (days - daysBeforeYear year).toNat =
      (month, day)) :
    dayNumber year month day + epochDays = days ∧ 1 ≤ day ∧ day ≤ monthLength year month := by
  rw [daysBeforeYear_succ] at hnext
  have hinside : (days - daysBeforeYear year).toNat < (monthLengths (isLeapYear year)).sum := by
    omega
  obtain ⟨before, length, after, hlengths, hmonth, hday, hpos, hle⟩ := monthAndDay_eq 1 hinside
  obtain ⟨hlength, hbefore⟩ := month_of_lengths hlengths
  rw [hdate] at hmonth hday hpos hle
  dsimp only at hmonth hday hpos hle
  refine ⟨?_, hpos, ?_⟩
  · rw [dayNumber, hmonth, hbefore]
    omega
  · rw [hmonth, hlength]
    exact hle

theorem monthLength_le (year : Int) (month : Nat) : monthLength year month ≤ 31 := by
  have hlengths : ∀ leap, ∀ length ∈ monthLengths leap, length ≤ 31 := by decide
  cases month with
  | zero => exact Nat.zero_le 31
  | succ month =>
      rw [monthLength, List.getD_eq_getElem?_getD]
      cases hlength : (monthLengths (isLeapYear year))[month]? with
      | none => exact Nat.zero_le 31
      | some length => exact hlengths _ length (List.mem_of_getElem? hlength)

/-- Only the months from 1 to 12 have days. -/
theorem month_le_of_monthLength_pos {year : Int} {month : Nat} (h : 0 < monthLength year month) :
    month ≤ 12 := by
  have hlength : (monthLengths (isLeapYear year)).length = 12 := rfl
  cases month with
  | zero => exact Nat.zero_le 12
  | succ month =>
      rw [monthLength, List.getD_eq_getElem?_getD] at h
      by_cases hlt : month < 12
      · exact hlt
      · rw [List.getElem?_eq_none (by omega)] at h
        cases h

namespace LocalTime

/-- What the fields of a valid local time can be. -/
theorem fields_of_isValid {t : LocalTime} (h : t.isValid = true) :
    t.month ≤ 12 ∧ t.day ≤ 31 ∧ t.hour < 24 ∧ t.minute < 60 ∧ t.second < 60 := by
  simp only [isValid, Bool.and_eq_true, decide_eq_true_eq] at h
  obtain ⟨⟨⟨⟨hpos, hle⟩, hhour⟩, hminute⟩, hsecond⟩ := h
  have hmonth : t.month ≤ 12 := month_le_of_monthLength_pos (Nat.le_trans hpos hle)
  have hday : t.day ≤ 31 := Nat.le_trans hle (monthLength_le t.year t.month)
  exact ⟨hmonth, hday, hhour, hminute, hsecond⟩

variable (seconds : Int)

/-- The date of a count of seconds. -/
theorem date_ofSeconds :
    dayNumber (ofSeconds seconds).year (ofSeconds seconds).month (ofSeconds seconds).day =
        seconds / 86400 ∧
      1 ≤ (ofSeconds seconds).day ∧
      (ofSeconds seconds).day ≤ monthLength (ofSeconds seconds).year (ofSeconds seconds).month := by
  have hyear : (ofSeconds seconds).year = yearOfDays (seconds / 86400 + epochDays) := rfl
  have hdate : monthAndDay 1 (monthLengths (isLeapYear (ofSeconds seconds).year))
      (seconds / 86400 + epochDays - daysBeforeYear (ofSeconds seconds).year).toNat =
        ((ofSeconds seconds).month, (ofSeconds seconds).day) := rfl
  obtain ⟨hfirst, hnext⟩ := yearOfDays_bounds (seconds / 86400 + epochDays)
  rw [← hyear] at hfirst hnext
  obtain ⟨hnumber, hpos, hle⟩ := dayNumber_monthAndDay hfirst hnext hdate
  exact ⟨by omega, hpos, hle⟩

/-- A local time that was made from seconds gives them back. -/
theorem seconds_ofSeconds : (ofSeconds seconds).seconds = seconds := by
  have hclock : (ofSeconds seconds).hour * 3600 + (ofSeconds seconds).minute * 60 +
      (ofSeconds seconds).second = (seconds % 86400).toNat := by
    unfold ofSeconds
    dsimp only
    omega
  rw [LocalTime.seconds, (date_ofSeconds seconds).1, hclock]
  omega

/-- A local time that was made from seconds is a valid one. -/
theorem isValid_ofSeconds : (ofSeconds seconds).isValid = true := by
  obtain ⟨-, hpos, hle⟩ := date_ofSeconds seconds
  have hhour : (ofSeconds seconds).hour < 24 := by
    unfold ofSeconds
    dsimp only
    omega
  have hminute : (ofSeconds seconds).minute < 60 := Nat.mod_lt _ (by decide)
  have hsecond : (ofSeconds seconds).second < 60 := Nat.mod_lt _ (by decide)
  simp [isValid, hpos, hle, hhour, hminute, hsecond]

end LocalTime

end QueryFilter
