import Mathlib
import QueryFilter.Moment.Layout
import QueryFilter.Proofs.Number.Numeral

/-! # The texts of dates

A date is written as a day in one of three layouts, possibly followed by a separator and a time
(`IsDateText`); every text that is read as a date is of this form (`Moment.isDateText_of_ofText?`).
Apart from the separator, it has only characters of `isFieldChar`, and so has every decimal.

A day starts with an integer and a mark that no decimal has there, so no date is a number
(`IsDateText.decimal_eq_none`). -/

namespace QueryFilter

/-! ### Characters -/

/-- The characters of numbers, days and times. -/
def isFieldChar (c : Char) : Bool :=
  c.isDigit || ['+', '-', '.', '/', ':', 'e', 'E', 'Z', 'z'].contains c

theorem isFieldChar_of_isDigit {c : Char} (h : c.isDigit = true) : isFieldChar c = true := by
  rw [isFieldChar, h, Bool.true_or]

/-- Digits, possibly after a sign. -/
def IsInteger (cs : List Char) : Prop :=
  ∃ sign digits, cs = sign ++ digits ∧ sign ∈ [[], ['+'], ['-']] ∧ digits ≠ [] ∧
    ∀ c ∈ digits, c.isDigit = true

namespace IsInteger
variable {cs : List Char}

theorem of_digits (hne : cs ≠ []) (h : ∀ c ∈ cs, c.isDigit = true) : IsInteger cs :=
  ⟨[], cs, rfl, by simp, hne, h⟩

theorem ne_nil (h : IsInteger cs) : cs ≠ [] := by
  obtain ⟨sign, digits, rfl, -, hne, -⟩ := h
  exact List.append_ne_nil_of_right_ne_nil sign hne

theorem isFieldChar (h : IsInteger cs) : ∀ c ∈ cs, isFieldChar c = true := by
  obtain ⟨sign, digits, rfl, hsign, -, hdigits⟩ := h
  refine List.forall_mem_append.mpr ⟨?_, fun c hc => isFieldChar_of_isDigit (hdigits c hc)⟩
  simp only [List.mem_cons, List.not_mem_nil, or_false] at hsign
  rcases hsign with rfl | rfl | rfl
  · simp
  · exact List.forall_mem_singleton.mpr rfl
  · exact List.forall_mem_singleton.mpr rfl

/-- No decimal starts with an integer and a mark of a date. -/
theorem decimal_eq_none (h : IsInteger cs) {mark : Char} (hmark : mark ∈ ['-', '/'])
    (rest : List Char) : Decimal.ofText? (cs ++ mark :: rest) = none := by
  obtain ⟨sign, digits, rfl, hsign, hne, hdigits⟩ := h
  have hsigned : (splitSign (sign ++ digits ++ mark :: rest)).2 = digits ++ mark :: rest := by
    simp only [List.mem_cons, List.not_mem_nil, or_false] at hsign
    rcases hsign with rfl | rfl | rfl
    · obtain ⟨d, more, rfl⟩ := List.exists_cons_of_ne_nil hne
      exact congrArg Prod.snd (splitSign_of_isDigit (hdigits d (by simp)) _)
    · rfl
    · rfl
  have hdigit : mark.isDigit = false := by
    simp only [List.mem_cons, List.not_mem_nil, or_false] at hmark
    rcases hmark with rfl | rfl <;> rfl
  have hwhole : (digits ++ mark :: rest).takeWhile Char.isDigit = digits ∧
      (digits ++ mark :: rest).dropWhile Char.isDigit = mark :: rest := by
    rw [List.takeWhile_append_of_pos hdigits, List.dropWhile_append_of_pos hdigits]
    simp [hdigit]
  have hsome : digits.isEmpty = false := List.isEmpty_eq_false_iff.mpr hne
  -- The mark starts neither a fraction nor an exponent.
  rw [Decimal.ofText?]
  dsimp only
  rw [hsigned, hwhole.1, hwhole.2, hsome]
  simp only [List.mem_cons, List.not_mem_nil, or_false] at hmark
  rcases hmark with rfl | rfl <;> rfl

end IsInteger

/-! ### Decimals -/

section decimals
variable {cs : List Char}

theorem splitSign_chars (cs : List Char) :
    ∀ c ∈ cs, c ∈ (splitSign cs).2 ∨ isFieldChar c = true := by
  unfold splitSign
  split
  · exact List.forall_mem_cons.mpr ⟨.inr rfl, fun c hc => .inl hc⟩
  · exact List.forall_mem_cons.mpr ⟨.inr rfl, fun c hc => .inl hc⟩
  · exact fun c hc => .inl hc

theorem splitFraction_chars (cs : List Char) :
    ∀ c ∈ cs, c ∈ (splitFraction cs).2 ∨ isFieldChar c = true := by
  unfold splitFraction
  split
  · next rest =>
    refine List.forall_mem_cons.mpr ⟨.inr rfl, fun c hc => ?_⟩
    rw [← List.takeWhile_append_dropWhile (p := Char.isDigit) (l := rest), List.mem_append] at hc
    rcases hc with hc | hc
    · exact .inr (isFieldChar_of_isDigit (List.mem_takeWhile_imp hc))
    · exact .inl hc
  · exact fun c hc => .inl hc

theorem readExponent?_chars {exponent : Int} (h : readExponent? cs = some exponent) :
    ∀ c ∈ cs, isFieldChar c = true := by
  cases cs with
  | nil => simp
  | cons mark digits =>
      rw [readExponent?] at h
      split at h
      · next hmark =>
        dsimp only at h
        split at h
        · cases h
        · next hdigits =>
          refine List.forall_mem_cons.mpr ⟨?_, fun c hc => ?_⟩
          · simp only [Bool.or_eq_true, beq_iff_eq] at hmark
            rcases hmark with rfl | rfl <;> rfl
          · simp only [Bool.or_eq_true, Bool.not_eq_true', not_or, Bool.not_eq_false,
              List.all_eq_true] at hdigits
            rcases splitSign_chars digits c hc with hc | hc
            · exact isFieldChar_of_isDigit (hdigits.2 c hc)
            · exact hc
      · cases h

/-- A decimal is not empty and has no other characters. -/
theorem Decimal.ofText?_chars {d : Decimal} (h : Decimal.ofText? cs = some d) :
    cs ≠ [] ∧ ∀ c ∈ cs, isFieldChar c = true := by
  have hne : cs ≠ [] := by
    rintro rfl
    cases h
  refine ⟨hne, fun c hc => ?_⟩
  rw [Decimal.ofText?] at h
  dsimp only at h
  split at h
  · cases h
  · obtain ⟨exponent, hexponent, -⟩ := Option.map_eq_some_iff.mp h
    rcases splitSign_chars cs c hc with hc | hc
    · rw [← List.takeWhile_append_dropWhile (p := Char.isDigit) (l := (splitSign cs).2),
        List.mem_append] at hc
      rcases hc with hc | hc
      · exact isFieldChar_of_isDigit (List.mem_takeWhile_imp hc)
      · rcases splitFraction_chars _ c hc with hc | hc
        · exact readExponent?_chars hexponent c hc
        · exact hc
    · exact hc

end decimals

/-! ### Layouts -/

section fields
variable {cs rest : List Char}

theorem takeDigits?_eq_some {width n : Nat} (h : takeDigits? width cs = some (n, rest)) :
    ∃ digits, cs = digits ++ rest ∧ digits.length = width ∧ ∀ c ∈ digits, c.isDigit = true := by
  unfold takeDigits? at h
  dsimp only at h
  split at h
  · next hdigits =>
    cases h
    exact ⟨cs.take width, (List.take_append_drop width cs).symm, hdigits.1,
      List.all_eq_true.mp hdigits.2⟩
  · cases h

theorem takeMark?_eq_some {mark : Char} (h : takeMark? mark cs = some rest) : cs = mark :: rest := by
  unfold takeMark? at h
  split at h
  · cases h
  · split at h
    · next hmark =>
      cases h
      rw [hmark]
    · cases h

/-- A field of fixed width is an integer without a sign. -/
theorem exists_isInteger_of_takeDigits? {width n : Nat}
    (h : takeDigits? (width + 1) cs = some (n, rest)) :
    ∃ taken, cs = taken ++ rest ∧ IsInteger taken := by
  obtain ⟨digits, hcs, hlength, hdigits⟩ := takeDigits?_eq_some h
  exact ⟨digits, hcs, .of_digits (List.ne_nil_of_length_eq_add_one hlength) hdigits⟩

end fields

namespace LayoutPart
variable {cs rest : List Char}

/-- The text stands for the part: a mark for itself, an integer for any other part. -/
def Spells : LayoutPart → List Char → Prop
  | .mark c, cs => cs = [c]
  | _, cs => IsInteger cs

theorem Spells.ne_nil {part : LayoutPart} (h : part.Spells cs) : cs ≠ [] := by
  cases part with
  | mark c =>
      rw [h]
      simp
  | year | month | day | hour | minute | second => exact IsInteger.ne_nil h

/-- The part is spelled in the characters of numbers, days and times. -/
def isField : LayoutPart → Bool
  | .mark c => isFieldChar c
  | _ => true

theorem Spells.isFieldChar {part : LayoutPart} (h : part.Spells cs) (hpart : part.isField = true) :
    ∀ c ∈ cs, isFieldChar c = true := by
  cases part with
  | mark c =>
      obtain rfl : cs = [c] := h
      exact List.forall_mem_singleton.mpr hpart
  | year | month | day | hour | minute | second => exact IsInteger.isFieldChar h

theorem digitRun_spec (limit : Nat) (cs : List Char) :
    digitRun limit cs <+: cs ∧ ∀ c ∈ digitRun limit cs, c.isDigit = true := by
  fun_induction digitRun limit cs with
  | case1 => simp
  | case2 => simp
  | case3 limit c cs hc ih =>
      exact ⟨(List.prefix_cons_inj c).mpr ih.1, List.forall_mem_cons.mpr ⟨hc, ih.2⟩⟩
  | case4 => simp

theorem readLongYear?_eq_some {n : Nat} (h : readLongYear? cs = some (n, rest)) :
    ∃ digits, cs = digits ++ rest ∧ digits ≠ [] ∧ ∀ c ∈ digits, c.isDigit = true := by
  unfold readLongYear? at h
  dsimp only at h
  split at h
  · next hlength =>
    cases h
    obtain ⟨htaken, hdigits⟩ := digitRun_spec 6 cs
    refine ⟨_, (List.prefix_iff_eq_append.mp htaken).symm, ?_, hdigits⟩
    exact List.ne_nil_of_length_pos (by omega)
  · cases h

theorem readYear?_eq_some {year : Int} (h : readYear? cs = some (year, rest)) :
    ∃ taken, cs = taken ++ rest ∧ IsInteger taken := by
  unfold readYear? at h
  split at h
  · simp only [Option.map_eq_some_iff, Prod.mk.injEq, Prod.exists] at h
    obtain ⟨n, rest', hread, -, rfl⟩ := h
    obtain ⟨digits, rfl, hne, hdigits⟩ := readLongYear?_eq_some hread
    exact ⟨'+' :: digits, rfl, ['+'], digits, rfl, by simp, hne, hdigits⟩
  · simp only [Option.map_eq_some_iff, Prod.mk.injEq, Prod.exists] at h
    obtain ⟨n, rest', hread, -, rfl⟩ := h
    obtain ⟨digits, rfl, hne, hdigits⟩ := readLongYear?_eq_some hread
    exact ⟨'-' :: digits, rfl, ['-'], digits, rfl, by simp, hne, hdigits⟩
  · simp only [Option.map_eq_some_iff, Prod.mk.injEq, Prod.exists] at h
    obtain ⟨n, rest', hread, -, rfl⟩ := h
    exact exists_isInteger_of_takeDigits? hread

/-- What a part reads off a text stands for it. -/
theorem spells_of_read? {part : LayoutPart} {t t' : LocalTime}
    (h : part.read? t cs = some (t', rest)) : ∃ taken, cs = taken ++ rest ∧ part.Spells taken := by
  unfold read? at h
  cases part with
  | mark c =>
      simp only [Option.map_eq_some_iff, Prod.mk.injEq] at h
      obtain ⟨rest', hread, -, rfl⟩ := h
      exact ⟨[c], takeMark?_eq_some hread, rfl⟩
  | year =>
      simp only [Option.map_eq_some_iff, Prod.mk.injEq, Prod.exists] at h
      obtain ⟨n, rest', hread, -, rfl⟩ := h
      exact readYear?_eq_some hread
  | month | day | hour | minute | second =>
      simp only [Option.map_eq_some_iff, Prod.mk.injEq, Prod.exists] at h
      obtain ⟨n, rest', hread, -, rfl⟩ := h
      exact exists_isInteger_of_takeDigits? hread

end LayoutPart

namespace Layout

/-- The text is spelled part by part. -/
inductive Spells : Layout → List Char → Prop
  | nil : Spells [] []
  | cons {part : LayoutPart} {parts : Layout} {taken rest : List Char} (hpart : part.Spells taken)
      (hparts : Spells parts rest) : Spells (part :: parts) (taken ++ rest)

variable {layout first second : Layout} {cs : List Char}

theorem spells_of_readLocal? {t t' : LocalTime} (h : layout.readLocal? t cs = some t') :
    layout.Spells cs := by
  induction layout generalizing t cs with
  | nil =>
      cases cs with
      | nil => exact .nil
      | cons c cs => cases h
  | cons part parts ih =>
      rw [readLocal?] at h
      split at h
      · cases h
      · next hread =>
        obtain ⟨taken, rfl, hpart⟩ := LayoutPart.spells_of_read? hread
        exact .cons hpart (ih h)

theorem spells_of_read? {m : Moment} (h : layout.read? cs = some m) : layout.Spells cs := by
  unfold read? at h
  split at h
  · cases h
  · next hread => exact spells_of_readLocal? hread

namespace Spells

theorem ne_nil (h : layout.Spells cs) (hne : layout ≠ []) : cs ≠ [] := by
  cases h with
  | nil => exact absurd rfl hne
  | cons hpart _ => exact List.append_ne_nil_of_left_ne_nil hpart.ne_nil _

theorem append (h : (first ++ second).Spells cs) :
    ∃ a b, cs = a ++ b ∧ first.Spells a ∧ second.Spells b := by
  induction first generalizing cs with
  | nil => exact ⟨[], cs, rfl, .nil, h⟩
  | cons part parts ih =>
      cases h with
      | @cons _ _ taken rest hpart hparts =>
          obtain ⟨a, b, rfl, ha, hb⟩ := ih hparts
          exact ⟨taken ++ a, b, (List.append_assoc taken a b).symm, .cons hpart ha, hb⟩

theorem isFieldChar (h : layout.Spells cs) (hlayout : layout.all LayoutPart.isField = true) :
    ∀ c ∈ cs, isFieldChar c = true := by
  induction h with
  | nil => simp
  | cons hpart _ ih =>
      rw [List.all_cons, Bool.and_eq_true] at hlayout
      exact List.forall_mem_append.mpr ⟨hpart.isFieldChar hlayout.1, ih hlayout.2⟩

end Spells

/-- The layouts of a day. -/
def days : List Layout := [dashedDate, monthFirst, slashedDate]

/-- A day starts with an integer and a dash or a slash. -/
theorem Spells.exists_mark (h : layout.Spells cs) (hlayout : layout ∈ days) :
    ∃ integer mark rest, cs = integer ++ mark :: rest ∧ IsInteger integer ∧ mark ∈ ['-', '/'] := by
  simp only [days, List.mem_cons, List.not_mem_nil, or_false] at hlayout
  rcases hlayout with rfl | rfl | rfl
  all_goals
    cases h with
    | cons hinteger hmore =>
      cases hmore with
      | cons hmark _ =>
        obtain rfl := hmark
        exact ⟨_, _, _, rfl, hinteger, by simp⟩

theorem all_isField_of_mem_days (hlayout : layout ∈ days) : layout.all LayoutPart.isField = true := by
  simp only [days, List.mem_cons, List.not_mem_nil, or_false] at hlayout
  rcases hlayout with rfl | rfl | rfl <;> rfl

end Layout

/-! ### Dates -/

/-- A day, possibly with a separator and a time after it. -/
inductive IsDateText : List Char → Prop
  | day {layout : Layout} {day : List Char} (hlayout : layout ∈ Layout.days)
      (hday : layout.Spells day) : IsDateText day
  | timed {layout : Layout} {day : List Char} (hlayout : layout ∈ Layout.days)
      (hday : layout.Spells day) (separator : Char) {time : List Char} (hne : time ≠ [])
      (htime : ∀ c ∈ time, isFieldChar c = true) : IsDateText (day ++ separator :: time)

namespace Timestamp
variable {cs rest : List Char}

theorem readFraction?_chars {nanos : Nat} (h : readFraction? cs = some (nanos, rest))
    (hrest : ∀ c ∈ rest, isFieldChar c = true) : ∀ c ∈ cs, isFieldChar c = true := by
  unfold readFraction? at h
  split at h
  · next digits =>
    dsimp only at h
    split at h
    · cases h
    · cases h
      rw [← List.takeWhile_append_dropWhile (p := Char.isDigit) (l := digits)]
      refine List.forall_mem_cons.mpr ⟨rfl, List.forall_mem_append.mpr ⟨fun c hc => ?_, hrest⟩⟩
      exact isFieldChar_of_isDigit (List.mem_takeWhile_imp hc)
  · cases h
    exact hrest

theorem readOffsetClock?_chars {n : Nat} (h : readOffsetClock? cs = some n) :
    ∀ c ∈ cs, isFieldChar c = true := by
  simp only [readOffsetClock?, Option.bind_eq_bind, Option.bind_eq_some_iff] at h
  obtain ⟨⟨_, _⟩, hreadHours, _, hmark, ⟨_, _⟩, hreadMinutes, h⟩ := h
  obtain ⟨hours, rfl, -, hhours⟩ := takeDigits?_eq_some hreadHours
  obtain rfl := takeMark?_eq_some hmark
  obtain ⟨minutes, rfl, -, hminutes⟩ := takeDigits?_eq_some hreadMinutes
  split at h
  · next hend =>
    simp only [Bool.and_eq_true, List.isEmpty_iff] at hend
    rw [hend.1.1, List.append_nil]
    refine List.forall_mem_append.mpr ⟨fun c hc => isFieldChar_of_isDigit (hhours c hc), ?_⟩
    exact List.forall_mem_cons.mpr ⟨rfl, fun c hc => isFieldChar_of_isDigit (hminutes c hc)⟩
  · cases h

theorem readOffset?_chars {offset : Int} (h : readOffset? cs = some offset) :
    ∀ c ∈ cs, isFieldChar c = true := by
  unfold readOffset? at h
  split at h
  · exact List.forall_mem_singleton.mpr rfl
  · exact List.forall_mem_singleton.mpr rfl
  · obtain ⟨_, hread, -⟩ := Option.map_eq_some_iff.mp h
    obtain ⟨n, hn, -⟩ := Option.bind_eq_some_iff.mp hread
    exact List.forall_mem_cons.mpr ⟨rfl, readOffsetClock?_chars hn⟩
  · obtain ⟨_, hread, -⟩ := Option.map_eq_some_iff.mp h
    obtain ⟨n, hn, -⟩ := Option.bind_eq_some_iff.mp hread
    exact List.forall_mem_cons.mpr ⟨rfl, readOffsetClock?_chars hn⟩
  · cases h

theorem takeSeparator?_eq_some (h : takeSeparator? cs = some rest) :
    ∃ separator, cs = separator :: rest := by
  unfold takeSeparator? at h
  split at h
  · cases h
  · next c _ =>
    split at h
    · cases h
      exact ⟨c, rfl⟩
    · cases h

/-- A timestamp is a day, a separator, a clock, a fraction and an offset. -/
theorem read?_eq_some {m : Moment} (h : read? cs = some m) :
    ∃ day separator clock tail zone t nanos offset, cs = day ++ separator :: (clock ++ tail) ∧
      Layout.dashedDate.Spells day ∧ Layout.clock.Spells clock ∧
      readFraction? tail = some (nanos, zone) ∧ readOffset? zone = some offset ∧
      moment? t nanos offset = some m := by
  rw [read?] at h
  obtain ⟨⟨_, _⟩, hreadYear, h⟩ := Option.bind_eq_some_iff.mp h
  obtain ⟨_, hdash, h⟩ := Option.bind_eq_some_iff.mp h
  obtain ⟨⟨_, _⟩, hreadMonth, h⟩ := Option.bind_eq_some_iff.mp h
  obtain ⟨_, hdash', h⟩ := Option.bind_eq_some_iff.mp h
  obtain ⟨⟨_, _⟩, hreadDay, h⟩ := Option.bind_eq_some_iff.mp h
  obtain ⟨_, hseparator, h⟩ := Option.bind_eq_some_iff.mp h
  obtain ⟨⟨_, _⟩, hreadHour, h⟩ := Option.bind_eq_some_iff.mp h
  obtain ⟨_, hcolon, h⟩ := Option.bind_eq_some_iff.mp h
  obtain ⟨⟨_, _⟩, hreadMinute, h⟩ := Option.bind_eq_some_iff.mp h
  obtain ⟨_, hcolon', h⟩ := Option.bind_eq_some_iff.mp h
  obtain ⟨⟨_, tail⟩, hreadSecond, h⟩ := Option.bind_eq_some_iff.mp h
  obtain ⟨⟨nanos, zone⟩, hfraction, h⟩ := Option.bind_eq_some_iff.mp h
  obtain ⟨offset, hoffset, hmoment⟩ := Option.bind_eq_some_iff.mp h
  -- Each step leaves the text that the next one starts with.
  obtain ⟨year, rfl, hyear⟩ := exists_isInteger_of_takeDigits? hreadYear
  obtain rfl := takeMark?_eq_some hdash
  obtain ⟨month, rfl, hmonth⟩ := exists_isInteger_of_takeDigits? hreadMonth
  obtain rfl := takeMark?_eq_some hdash'
  obtain ⟨day, rfl, hday⟩ := exists_isInteger_of_takeDigits? hreadDay
  obtain ⟨separator, rfl⟩ := takeSeparator?_eq_some hseparator
  obtain ⟨hour, rfl, hhour⟩ := exists_isInteger_of_takeDigits? hreadHour
  obtain rfl := takeMark?_eq_some hcolon
  obtain ⟨minute, rfl, hminute⟩ := exists_isInteger_of_takeDigits? hreadMinute
  obtain rfl := takeMark?_eq_some hcolon'
  obtain ⟨second, rfl, hsecond⟩ := exists_isInteger_of_takeDigits? hreadSecond
  refine ⟨_, separator, _, tail, zone, _, nanos, offset, ?_,
    .cons hyear (.cons rfl (.cons hmonth (.cons rfl (.cons hday .nil)))),
    .cons hhour (.cons rfl (.cons hminute (.cons rfl (.cons hsecond .nil)))), hfraction, hoffset,
    hmoment⟩
  simp

/-- A timestamp is a day with a time. -/
theorem isDateText_of_read? {m : Moment} (h : read? cs = some m) : IsDateText cs := by
  obtain ⟨day, separator, clock, tail, zone, t, nanos, offset, rfl, hday, hclock, hfraction, hoffset,
    -⟩ := read?_eq_some h
  have htail := readFraction?_chars hfraction (readOffset?_chars hoffset)
  exact .timed (by simp [Layout.days]) hday separator
    (List.append_ne_nil_of_left_ne_nil (hclock.ne_nil (by simp [Layout.clock])) _)
    (List.forall_mem_append.mpr ⟨hclock.isFieldChar rfl, htail⟩)

end Timestamp

/-- A day in a layout, a mark and a time in a layout are a date. -/
theorem Layout.isDateText_of_read? {time : Layout} {cs : List Char} {m : Moment}
    (hne : time ≠ []) (htime : time.all LayoutPart.isField = true) {separator : Char}
    (h : Layout.read? (Layout.dashedDate ++ .mark separator :: time) cs = some m) :
    IsDateText cs := by
  obtain ⟨day, rest, rfl, hday, hrest⟩ := (Layout.spells_of_read? h).append
  cases hrest with
  | cons hmark hspelled =>
      obtain rfl := hmark
      exact .timed (by simp [Layout.days]) hday separator (hspelled.ne_nil hne)
        (hspelled.isFieldChar htime)

/-- **A text that is read as a date is a day, or a day with a time.** -/
theorem Moment.isDateText_of_ofText? {text : String} {m : Moment} (h : Moment.ofText? text = some m) :
    IsDateText text.toList := by
  obtain ⟨format, hformat, hread⟩ := List.exists_of_findSome?_eq_some h
  have hday {layout : Layout} (hlayout : layout ∈ Layout.days)
      (hread : layout.read? text.toList = some m) : IsDateText text.toList :=
    .day hlayout (Layout.spells_of_read? hread)
  simp only [dateFormats, List.mem_cons, List.not_mem_nil, or_false] at hformat
  rcases hformat with rfl | rfl | rfl | rfl | rfl | rfl | rfl
  · exact Timestamp.isDateText_of_read? hread
  · exact hday (by simp [Layout.days]) hread
  · exact Layout.isDateText_of_read? (by simp) rfl hread
  · exact Layout.isDateText_of_read? (by simp [Layout.clock]) rfl hread
  · exact Layout.isDateText_of_read? (by simp [Layout.clock]) rfl hread
  · exact hday (by simp [Layout.days]) hread
  · exact hday (by simp [Layout.days]) hread

namespace IsDateText
variable {cs : List Char}

theorem exists_mark (h : IsDateText cs) :
    ∃ integer mark rest, cs = integer ++ mark :: rest ∧ IsInteger integer ∧ mark ∈ ['-', '/'] := by
  cases h with
  | day hlayout hday => exact hday.exists_mark hlayout
  | @timed _ _ hlayout hday separator time _ _ =>
      obtain ⟨integer, mark, rest, rfl, hinteger, hmark⟩ := hday.exists_mark hlayout
      exact ⟨integer, mark, rest ++ separator :: time, by simp, hinteger, hmark⟩

/-- No date is a number. -/
theorem decimal_eq_none (h : IsDateText cs) : Decimal.ofText? cs = none := by
  obtain ⟨integer, mark, rest, rfl, hinteger, hmark⟩ := h.exists_mark
  exact hinteger.decimal_eq_none hmark rest

theorem looksLikeDate {text : String} (h : IsDateText text.toList) : looksLikeDate text = true := by
  obtain ⟨integer, mark, rest, htext, -, hmark⟩ := h.exists_mark
  rw [QueryFilter.looksLikeDate, htext, List.any_eq_true]
  refine ⟨mark, by simp, ?_⟩
  simp only [List.mem_cons, List.not_mem_nil, or_false] at hmark
  rcases hmark with rfl | rfl <;> rfl

end IsDateText

end QueryFilter
