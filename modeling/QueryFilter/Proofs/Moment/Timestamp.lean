import Mathlib
import QueryFilter.Proofs.Moment.Calendar
import QueryFilter.Proofs.Moment.DateText

/-! # Moments written as timestamps

A moment whose local year has four digits is written as a timestamp, and the timestamp is read as the
same moment, with its offset (`Moment.ofText?_write`).  Dates that are read from texts have offsets of
whole minutes below a day, so among them those without a timestamp are the ones whose local year is
out of range (`write?_eq_none_iff`). -/

namespace QueryFilter

/-! ### Digits of fixed width -/

section padded

theorem length_paddedDigits (width n : Nat) : (paddedDigits width n).length = width := by
  induction width generalizing n with
  | zero => rfl
  | succ width ih => simp [paddedDigits, ih]

theorem isDigit_paddedDigits (width n : Nat) : ∀ c ∈ paddedDigits width n, c.isDigit = true := by
  induction width generalizing n with
  | zero => simp [paddedDigits]
  | succ width ih =>
      have hlast : (n % 10).digitChar.isDigit = true := by
        rw [Nat.isDigit_digitChar, decide_eq_true_eq]
        omega
      exact List.forall_mem_append.mpr ⟨ih (n / 10), by simpa using hlast⟩

theorem digitsValue_paddedDigits {width n : Nat} (h : n < 10 ^ width) :
    digitsValue (paddedDigits width n) = n := by
  induction width generalizing n with
  | zero =>
      obtain rfl : n = 0 := by simpa using h
      rfl
  | succ width ih =>
      have hlast : digitsValue [(n % 10).digitChar] = n % 10 := by
        have hvalue := Nat.toNat_digitChar_sub_48_of_lt_ten (Nat.mod_lt n (by decide : 0 < 10))
        simpa [digitsValue, digitsValueFrom, digitValue] using hvalue
      rw [Nat.pow_succ] at h
      rw [paddedDigits, digitsValue_append, ih (by omega), hlast, List.length_singleton]
      omega

theorem takeDigits?_append {width : Nat} {digits : List Char} (hlength : digits.length = width)
    (hdigits : ∀ c ∈ digits, c.isDigit = true) (rest : List Char) :
    takeDigits? width (digits ++ rest) = some (digitsValue digits, rest) := by
  subst hlength
  have hall : digits.all Char.isDigit = true := List.all_eq_true.mpr hdigits
  simp [takeDigits?, hall]

theorem takeDigits?_padded {width n : Nat} (h : n < 10 ^ width) (rest : List Char) :
    takeDigits? width (paddedDigits width n ++ rest) = some (n, rest) := by
  rw [takeDigits?_append (length_paddedDigits width n) (isDigit_paddedDigits width n),
    digitsValue_paddedDigits h]

theorem takeMark?_cons (mark : Char) (rest : List Char) : takeMark? mark (mark :: rest) = some rest := by
  simp [takeMark?]

end padded

namespace Timestamp

/-! ### Fractions and offsets -/

/-- A text is what is left of it without trailing zeros, and the zeros. -/
theorem exists_trailing_zeros (cs : List Char) :
    ∃ k, cs = (cs.reverse.dropWhile (· == '0')).reverse ++ List.replicate k '0' := by
  refine ⟨(cs.reverse.takeWhile (· == '0')).length, ?_⟩
  have hzeros : cs.reverse.takeWhile (· == '0') =
      List.replicate (cs.reverse.takeWhile (· == '0')).length '0' := by
    apply List.eq_replicate_of_mem
    intro c hc
    simpa using List.all_eq_true.mp List.all_takeWhile c hc
  have hsplit := congrArg List.reverse
    (List.takeWhile_append_dropWhile (p := (· == '0')) (l := cs.reverse))
  rw [List.reverse_append, List.reverse_reverse] at hsplit
  rw [← List.reverse_replicate, ← hzeros]
  exact hsplit.symm

theorem readFraction?_of_head {rest : List Char} (hpoint : rest.head? ≠ some '.') :
    readFraction? rest = some (0, rest) := by
  unfold readFraction?
  split
  · simp at hpoint
  · rfl

/-- Digits after a point, up to something that is no digit. -/
theorem readFraction?_digits {digits rest : List Char} (hne : digits ≠ [])
    (hdigits : ∀ c ∈ digits, c.isDigit = true) (hrest : ∀ c ∈ rest.head?, c.isDigit = false) :
    readFraction? ('.' :: (digits ++ rest)) = some (nanosOf digits, rest) := by
  have hstop : rest.takeWhile Char.isDigit = [] ∧ rest.dropWhile Char.isDigit = rest := by
    cases rest with
    | nil => exact ⟨rfl, rfl⟩
    | cons c rest =>
        have hc : c.isDigit = false := hrest c rfl
        simp [hc]
  have hsome : digits.isEmpty = false := List.isEmpty_eq_false_iff.mpr hne
  rw [readFraction?, List.takeWhile_append_of_pos hdigits, List.dropWhile_append_of_pos hdigits,
    hstop.1, hstop.2, List.append_nil]
  simp [hsome]

theorem readFraction?_fractionText {nanos : Nat} (h : nanos < 1000000000) {rest : List Char}
    (hdigit : ∀ c ∈ rest.head?, c.isDigit = false) (hpoint : rest.head? ≠ some '.') :
    readFraction? (fractionText nanos ++ rest) = some (nanos, rest) := by
  rw [fractionText]
  split
  · next hzero =>
    rw [List.nil_append, readFraction?_of_head hpoint, hzero]
  · next hzero =>
    obtain ⟨k, hpadded⟩ := exists_trailing_zeros (paddedDigits 9 nanos)
    have hkept := isDigit_paddedDigits 9 nanos
    have hlength := length_paddedDigits 9 nanos
    have hvalue : digitsValue (paddedDigits 9 nanos) = nanos := digitsValue_paddedDigits h
    generalize ((paddedDigits 9 nanos).reverse.dropWhile (· == '0')).reverse = kept at hpadded
    rw [hpadded] at hkept hlength hvalue
    rw [List.length_append, List.length_replicate] at hlength
    rw [digitsValue_append, digitsValue_zeros, List.length_replicate, Nat.add_zero] at hvalue
    have hne : kept ≠ [] := by
      rintro rfl
      exact hzero hvalue.symm
    have hnanos : nanosOf kept = nanos := by
      have hk : 9 - kept.length = k := by omega
      rw [nanosOf, List.take_of_length_le (by omega), hk, Nat.mul_comm]
      exact hvalue
    rw [List.cons_append, readFraction?_digits hne (List.forall_mem_append.mp hkept).1 hdigit, hnanos]

theorem readOffsetClock?_padded {hours minutes : Nat} (hhours : hours < 24) (hminutes : minutes < 60) :
    readOffsetClock? (paddedDigits 2 hours ++ ':' :: paddedDigits 2 minutes) =
      some (hours * 3600 + minutes * 60) := by
  have hread := takeDigits?_padded (show minutes < 10 ^ 2 by omega) []
  rw [List.append_nil] at hread
  rw [readOffsetClock?, takeDigits?_padded (by omega)]
  simp [takeMark?_cons, hread, hhours, hminutes]

theorem readOffset?_offsetText {offset : Int} (hminutes : offset.natAbs % 60 = 0)
    (hday : offset.natAbs < 86400) : readOffset? (offsetText offset) = some offset := by
  have hclock : readOffsetClock? (paddedDigits 2 (offset.natAbs / 3600) ++ ':' ::
      paddedDigits 2 (offset.natAbs / 60 % 60)) = some offset.natAbs := by
    rw [readOffsetClock?_padded (by omega) (by omega)]
    congr 1
    omega
  rw [offsetText]
  split
  · next hzero =>
    rw [hzero]
    rfl
  · next hzero =>
    split
    · next hneg =>
      have hsigned : -(offset.natAbs : Int) = offset := by omega
      simpa [readOffset?, hclock] using hsigned
    · next hneg =>
      have hsigned : (offset.natAbs : Int) = offset := by omega
      simpa [readOffset?, hclock] using hsigned

/-- An offset starts neither with a digit nor with a point. -/
theorem head?_offsetText (offset : Int) :
    (∀ c ∈ (offsetText offset).head?, c.isDigit = false) ∧ (offsetText offset).head? ≠ some '.' := by
  rw [offsetText]
  split
  · simp
  · split
    · simp
    · simp

/-- A local time and an offset are read as the moment with this offset. -/
theorem moment?_eq {m : Moment} {t : LocalTime} (hvalid : t.isValid = true)
    (hseconds : t.seconds = m.seconds + m.offset) : moment? t m.nanos m.offset = some m := by
  have hsecond := (LocalTime.fields_of_isValid hvalid).2.2.2.2
  rw [moment?, if_neg (by omega), dif_pos ⟨hvalid, m.nanos_lt⟩, hseconds, Int.add_sub_cancel]

/-- **A timestamp is read as the moment that it was written for.** -/
theorem read?_write {m : Moment} {text : String} (h : write? m = some text) :
    read? text.toList = some m := by
  have hvalid : m.localTime.isValid = true := LocalTime.isValid_ofSeconds _
  have hseconds : m.localTime.seconds = m.seconds + m.offset := LocalTime.seconds_ofSeconds _
  unfold write? at h
  dsimp only at h
  generalize m.localTime = t at h hvalid hseconds
  split at h
  · next hrange =>
    obtain ⟨hlow, hhigh, hminutes, hday⟩ := hrange
    cases h
    obtain ⟨hmonth, hmonthDay, hhour, hminute, hsecond⟩ := LocalTime.fields_of_isValid hvalid
    have hreadYear := takeDigits?_padded (show t.year.toNat < 10 ^ 4 by omega)
    have hreadMonth := takeDigits?_padded (show t.month < 10 ^ 2 by omega)
    have hreadDay := takeDigits?_padded (show t.day < 10 ^ 2 by omega)
    have hreadHour := takeDigits?_padded (show t.hour < 10 ^ 2 by omega)
    have hreadMinute := takeDigits?_padded (show t.minute < 10 ^ 2 by omega)
    have hreadSecond := takeDigits?_padded (show t.second < 10 ^ 2 by omega)
    have hseparator (rest : List Char) : takeSeparator? ('T' :: rest) = some rest := rfl
    have hfraction := readFraction?_fractionText m.nanos_lt (head?_offsetText m.offset).1
      (head?_offsetText m.offset).2
    have hoffset := readOffset?_offsetText hminutes hday
    have hyear : ((t.year.toNat : ℕ) : ℤ) = t.year := Int.toNat_of_nonneg hlow
    simp only [read?, String.toList_ofList, Option.bind_eq_bind, Option.bind_some, takeMark?_cons,
      hreadYear, hreadMonth, hreadDay, hseparator, hreadHour, hreadMinute, hreadSecond, hfraction,
      hoffset, hyear]
    exact moment?_eq hvalid hseconds
  · cases h

/-! ### Offsets of moments that were read -/

/-- The offset is a number of minutes below a day. -/
def IsWholeOffset (offset : Int) : Prop := offset.natAbs % 60 = 0 ∧ offset.natAbs < 86400

theorem readOffsetClock?_bounds {cs : List Char} {n : Nat} (h : readOffsetClock? cs = some n) :
    n % 60 = 0 ∧ n < 86400 := by
  simp only [readOffsetClock?, Option.bind_eq_bind, Option.bind_eq_some_iff] at h
  obtain ⟨⟨hours, rest⟩, -, rest', -, ⟨minutes, rest''⟩, -, h⟩ := h
  split at h
  · next hin =>
    simp only [Bool.and_eq_true, decide_eq_true_eq] at hin
    cases h
    omega
  · cases h

theorem readOffset?_isWholeOffset {cs : List Char} {offset : Int} (h : readOffset? cs = some offset) :
    IsWholeOffset offset := by
  rw [IsWholeOffset]
  unfold readOffset? at h
  split at h
  · cases h
    simp
  · cases h
    simp
  · simp only [Option.bind_eq_bind, Option.map_eq_some_iff, Option.bind_eq_some_iff, Option.pure_def,
      Option.some.injEq, exists_eq_right] at h
    obtain ⟨n, hn, rfl⟩ := h
    exact readOffsetClock?_bounds hn
  · simp only [Option.bind_eq_bind, Option.map_eq_some_iff, Option.bind_eq_some_iff, Option.pure_def,
      Option.some.injEq] at h
    obtain ⟨_, ⟨n, hn, rfl⟩, rfl⟩ := h
    rw [Int.natAbs_neg]
    exact readOffsetClock?_bounds hn
  · cases h

theorem moment?_offset {t : LocalTime} {nanos : Nat} {offset : Int} {m : Moment}
    (h : moment? t nanos offset = some m) : m.offset = offset := by
  unfold moment? at h
  split at h
  · dsimp only at h
    split at h
    · cases h
      rfl
    · cases h
  · split at h
    · cases h
      rfl
    · cases h

theorem read?_isWholeOffset {cs : List Char} {m : Moment} (h : read? cs = some m) :
    IsWholeOffset m.offset := by
  obtain ⟨_, _, _, _, _, _, _, offset, _, _, _, _, hoffset, hmoment⟩ := read?_eq_some h
  rw [moment?_offset hmoment]
  exact readOffset?_isWholeOffset hoffset

/-- A moment with a whole offset has a timestamp unless its local year is out of range. -/
theorem write?_eq_none_iff {m : Moment} (h : IsWholeOffset m.offset) :
    write? m = none ↔ m.localTime.year < 0 ∨ 9999 < m.localTime.year := by
  unfold write?
  dsimp only
  generalize m.localTime = t
  split
  · next hrange =>
    simp only [reduceCtorEq, false_iff]
    omega
  · next hrange =>
    simp only [true_iff]
    obtain ⟨hminutes, hday⟩ := h
    omega

end Timestamp

theorem Layout.read?_isWholeOffset {layout : Layout} {cs : List Char} {m : Moment}
    (h : layout.read? cs = some m) : Timestamp.IsWholeOffset m.offset := by
  unfold Layout.read? at h
  split at h
  · cases h
  · split at h
    · next t _ _ =>
      cases h
      have hzero : (Moment.ofUtc t).offset = 0 := rfl
      rw [hzero]
      exact ⟨rfl, by decide⟩
    · cases h

/-- Dates that are read have offsets of whole minutes. -/
theorem Moment.ofText?_isWholeOffset {text : String} {m : Moment} (h : Moment.ofText? text = some m) :
    Timestamp.IsWholeOffset m.offset := by
  obtain ⟨format, hm, hread⟩ := List.exists_of_findSome?_eq_some h
  simp only [dateFormats, List.mem_cons, List.not_mem_nil, or_false] at hm
  rcases hm with rfl | rfl | rfl | rfl | rfl | rfl | rfl
  · exact Timestamp.read?_isWholeOffset hread
  all_goals exact Layout.read?_isWholeOffset hread

/-- A timestamp is read as a date, before any other format is tried. -/
theorem Moment.ofText?_write {m : Moment} {text : String} (h : Timestamp.write? m = some text) :
    Moment.ofText? text = some m := by
  have hread := Timestamp.read?_write h
  rw [Moment.ofText?, dateFormats, List.findSome?_cons]
  dsimp only
  rw [hread]

/-! ### The characters of a timestamp -/

/-- The characters of which numbers and timestamps are written. -/
def isValueChar (c : Char) : Bool := c.isDigit || ['-', '.', ':', '+', 'T', 'Z'].contains c

section timestamps
variable {m : Moment} {text : String}

theorem isValueChar_of_isDigit {c : Char} (h : c.isDigit = true) : isValueChar c = true := by
  rw [isValueChar, h, Bool.true_or]

theorem isValueChar_paddedDigits (width n : Nat) :
    ∀ c ∈ paddedDigits width n, isValueChar c = true :=
  fun c hc => isValueChar_of_isDigit (isDigit_paddedDigits width n c hc)

theorem isValueChar_fractionText (nanos : Nat) :
    ∀ c ∈ Timestamp.fractionText nanos, isValueChar c = true := by
  rw [Timestamp.fractionText]
  split
  · simp
  · refine List.forall_mem_cons.mpr ⟨rfl, ?_⟩
    intro c hc
    have hmem := (List.dropWhile_suffix _).subset (List.mem_reverse.mp hc)
    exact isValueChar_paddedDigits 9 nanos c (List.mem_reverse.mp hmem)

theorem isValueChar_offsetText (offset : Int) :
    ∀ c ∈ Timestamp.offsetText offset, isValueChar c = true := by
  have hclock : ∀ c ∈ paddedDigits 2 (offset.natAbs / 3600) ++ ':' ::
      paddedDigits 2 (offset.natAbs / 60 % 60), isValueChar c = true :=
    List.forall_mem_append.mpr ⟨isValueChar_paddedDigits _ _,
      List.forall_mem_cons.mpr ⟨rfl, isValueChar_paddedDigits _ _⟩⟩
  rw [Timestamp.offsetText]
  split
  · simp [isValueChar]
  · refine List.forall_mem_cons.mpr ⟨?_, hclock⟩
    split <;> rfl

theorem Timestamp.write?_chars (h : Timestamp.write? m = some text) :
    ∀ c ∈ text.toList, isValueChar c = true := by
  unfold Timestamp.write? at h
  dsimp only at h
  split at h
  · cases h
    rw [String.toList_ofList]
    simp only [List.forall_mem_append, List.forall_mem_cons]
    exact ⟨isValueChar_paddedDigits _ _, rfl, isValueChar_paddedDigits _ _, rfl,
      isValueChar_paddedDigits _ _, rfl, isValueChar_paddedDigits _ _, rfl,
      isValueChar_paddedDigits _ _, rfl, isValueChar_paddedDigits _ _, isValueChar_fractionText _,
      isValueChar_offsetText _⟩
  · cases h

end timestamps

end QueryFilter
