import Mathlib
import QueryFilter.Proofs.Literal.DetectorOrder
import QueryFilter.Proofs.Moment.FormatOrder
import QueryFilter.Proofs.Token.DateTime

/-! # Dates with a time of day as literals

The scanner takes more literals for dates with a time of day than the date formats read.  Seconds,
fraction and zone can be left out of the literal, and the colon of an offset; the formats want
seconds, a fraction only in front of a zone, and the colon.  `DateTimeFields.isDate` says which
fields make a date.  The others stand for themselves, with or without an operator in front of them
(`resolve_dateTime`).

Each format is evaluated on the text of the fields, day and clock first, so that only the end of the
text is left to compare (`take?_timed`, `read?_timestamp`). -/

namespace QueryFilter

/-! ### What the fields say -/

/-- The digits of a fraction after the ninth are cut off. -/
theorem Timestamp.nanosOf_eq {digits : List Char} (h : ∀ c ∈ digits, c.isDigit = true) :
    nanosOf digits = digitsValue digits * 10 ^ 9 / 10 ^ digits.length := by
  rw [nanosOf]
  by_cases hlength : digits.length ≤ 9
  · have hpow : 10 ^ 9 = 10 ^ (9 - digits.length) * 10 ^ digits.length := by
      rw [← Nat.pow_add, Nat.sub_add_cancel hlength]
    rw [List.take_of_length_le hlength, hpow, ← Nat.mul_assoc,
      Nat.mul_div_cancel _ (Nat.pow_pos (by decide))]
    rfl
  · have hkept : (digits.take 9).length = 9 := List.length_take_of_le (by omega)
    have hcut : digitsValue (digits.drop 9) < 10 ^ (digits.drop 9).length :=
      digitsValue_lt fun c hc => h c (List.mem_of_mem_drop hc)
    have hpow : 10 ^ digits.length = 10 ^ (digits.drop 9).length * 10 ^ 9 := by
      rw [← Nat.pow_add, List.length_drop, Nat.sub_add_cancel (by omega)]
    have hvalue := digitsValue_append (digits.take 9) (digits.drop 9)
    rw [List.take_append_drop] at hvalue
    rw [hkept, hpow, hvalue, Nat.mul_div_mul_right _ _ (by decide),
      Nat.mul_add_div (Nat.pow_pos (by decide)), Nat.div_eq_of_lt hcut]
    exact Nat.mul_one _

/-- The nanoseconds, without what is left of the last one. -/
def Fraction.nanos (fraction : Fraction) : Nat :=
  digitsValue fraction.digits * 10 ^ 9 / 10 ^ fraction.digits.length

theorem Fraction.nanos_lt (fraction : Fraction) : fraction.nanos < 10 ^ 9 :=
  Nat.div_lt_of_lt_mul
    (Nat.mul_lt_mul_of_pos_right (digitsValue_lt fraction.isDigit) (by decide))

def SecondFields.nanos (seconds : SecondFields) : Nat := seconds.fraction.elim 0 Fraction.nanos

/-- How many seconds the clock is ahead of UTC. -/
def ZoneFields.ahead : ZoneFields → Int
  | utc => 0
  | offset negative _ hours minutes =>
    (if negative then -1 else 1) * ((hours * 3600 + minutes * 60 : Nat) : Int)

/-- The hours and minutes of an offset are those of a clock. -/
def ZoneFields.isValid : ZoneFields → Bool
  | utc => true
  | offset _ _ hours minutes => decide (hours < 24) && decide (minutes < 60)

/-- The zone is written as in timestamps. -/
def ZoneFields.isStandard : ZoneFields → Bool
  | utc => true
  | offset _ colon _ _ => colon

namespace DateTimeFields
variable (fields : DateTimeFields)

/-- The date and the time of day; seconds that are left out are zero. -/
def localTime : LocalTime where
  year := (fields.date.year : Nat)
  month := fields.date.month
  day := fields.date.day
  hour := fields.clock.hour
  minute := fields.clock.minute
  second := fields.clock.seconds.elim 0 fun seconds => seconds.value

/-- There is such a day, such a time and such a zone. -/
structure IsValid : Prop where
  localTime : fields.localTime.isValid = true
  zone : ∀ zone ∈ fields.zone, zone.isValid = true

/-- Dates have seconds.  They have a zone as in timestamps, or neither a zone nor a fraction. -/
def isDate : Bool :=
  match fields.clock.seconds, fields.zone with
  | none, _ => false
  | some _, some zone => zone.isStandard
  | some seconds, none => seconds.fraction.isNone

def nanos : Nat := fields.clock.seconds.elim 0 SecondFields.nanos

/-- How many seconds the clock is ahead of UTC; without a zone it shows UTC. -/
def ahead : Int := fields.zone.elim 0 ZoneFields.ahead

theorem nanos_lt : fields.nanos < 1000000000 := by
  rw [nanos]
  cases fields.clock.seconds with
  | none => decide
  | some seconds =>
      rw [Option.elim_some, SecondFields.nanos]
      cases seconds.fraction with
      | none => decide
      | some fraction => exact fraction.nanos_lt

/-- The instant that the fields name. -/
def moment : Moment :=
  ⟨fields.localTime.seconds - fields.ahead, fields.nanos, fields.ahead, fields.nanos_lt⟩

/-- The date, alone or compared with. -/
def resolved : Resolved :=
  match fields.comparison with
  | none => .scalar (.date fields.moment)
  | some comparison => .ordered (.compared comparison (.date fields.moment))

end DateTimeFields

/-! ### Reading the fields in a format -/

theorem takeMark?_eq_none {mark : Char} {cs : List Char} (h : cs.head? ≠ some mark) :
    takeMark? mark cs = none := by
  cases cs with
  | nil => rfl
  | cons c cs =>
      have hc : c ≠ mark := by simpa using h
      rw [takeMark?, if_neg hc]

theorem DateFields.take?_chars (date : DateFields) (rest : List Char) :
    Layout.dashedDate.take? {} (date.chars ++ rest) =
      some ({ year := (date.year : Nat), month := date.month, day := date.day }, rest) := by
  have hsign (rest : List Char) :
      startsWithSign (paddedDigits 4 date.year ++ rest) = false := by
    obtain ⟨d, more, hd, hcons⟩ := paddedDigits_eq_cons 3 date.year
    rw [hcons]
    exact startsWithSign_of_isDigit hd _
  simp [DateFields.chars, Layout.dashedDate, Layout.take?, LayoutPart.read?,
    LayoutPart.readYear?_eq (hsign _), takeDigits?_padded date.year.isLt, takeMark?_cons,
    takeDigits?_padded date.month.isLt, takeDigits?_padded date.day.isLt]

theorem ClockFields.take?_chars (clock : ClockFields) (t : LocalTime) {rest : List Char}
    (hrest : rest.head? ≠ some ':') :
    Layout.clock.take? t (clock.chars ++ rest) = clock.seconds.map fun seconds =>
      ({ t with hour := clock.hour, minute := clock.minute, second := seconds.value },
        seconds.fractionChars ++ rest) := by
  cases hseconds : clock.seconds with
  | none =>
      have hmark : takeMark? ':' rest = none := takeMark?_eq_none hrest
      simp [ClockFields.chars, hseconds, Layout.clock, Layout.take?, LayoutPart.read?,
        takeDigits?_padded clock.hour.isLt, takeMark?_cons, takeDigits?_padded clock.minute.isLt,
        hmark]
  | some seconds =>
      simp [ClockFields.chars, SecondFields.chars, hseconds, Layout.clock, Layout.take?,
        LayoutPart.read?, takeDigits?_padded clock.hour.isLt, takeMark?_cons,
        takeDigits?_padded clock.minute.isLt, takeDigits?_padded seconds.value.isLt]

theorem SecondFields.readFraction?_chars (seconds : SecondFields) {rest : List Char}
    (hrest : ∀ c ∈ rest.head?, (c.isDigit || c == '.' || c == ':') = false) :
    Timestamp.readFraction? (seconds.fractionChars ++ rest) = some (seconds.nanos, rest) := by
  have hdigit : ∀ c ∈ rest.head?, c.isDigit = false := fun c hc => by
    have hnot := hrest c hc
    simp only [Bool.or_eq_false_iff] at hnot
    exact hnot.1.1
  have hpoint : rest.head? ≠ some '.' := fun hc => by cases hrest '.' hc
  rw [fractionChars, nanos]
  cases seconds.fraction with
  | none => exact Timestamp.readFraction?_of_head hpoint
  | some fraction =>
      rw [Option.elim_some, Option.elim_some, Fraction.chars, List.cons_append,
        Timestamp.readFraction?_digits fraction.ne_nil fraction.isDigit hdigit,
        Timestamp.nanosOf_eq fraction.isDigit]
      rfl

theorem ZoneFields.readOffset?_chars {zone : ZoneFields} (hvalid : zone.isValid = true) :
    Timestamp.readOffset? zone.chars = if zone.isStandard then some zone.ahead else none := by
  cases zone with
  | utc => rfl
  | offset negative colon hours minutes =>
      cases colon with
      | true =>
          simp only [isValid, Bool.and_eq_true, decide_eq_true_eq] at hvalid
          have hclock := Timestamp.readOffsetClock?_padded hvalid.1 hvalid.2
          cases negative <;> simp [chars, isStandard, ahead, Timestamp.readOffset?, hclock]
      | false =>
          have hclock : Timestamp.readOffsetClock?
              (paddedDigits 2 hours ++ paddedDigits 2 minutes) = none := by
            have hmark : takeMark? ':' (paddedDigits 2 minutes) = none :=
              takeMark?_eq_none fun hc => by
                cases isDigit_paddedDigits 2 minutes ':' (List.mem_of_mem_head? hc)
            rw [Timestamp.readOffsetClock?, takeDigits?_padded hours.isLt]
            simp [hmark]
          cases negative <;> simp [chars, isStandard, Timestamp.readOffset?, hclock]

/-! ### Dates -/

namespace DateTimeFields
variable {fields : DateTimeFields}

theorem take?_timed (fields : DateTimeFields) (mark : Char) (more : Layout) :
    Layout.take? (Layout.dashedDate ++ .mark mark :: (Layout.clock ++ more)) {} fields.dateChars =
      if fields.separator = mark then fields.clock.seconds.bind fun seconds =>
        Layout.take? more fields.localTime (seconds.fractionChars ++ fields.zoneChars)
      else none := by
  have hrest : fields.zoneChars.head? ≠ some ':' := fun hc => by
    cases fields.head_zoneChars ':' hc
  -- every year has four digits here, so the day is taken off the text whatever comes after it
  rw [Layout.take?_append, dateChars, DateFields.take?_chars, Option.bind_some]
  dsimp only
  rw [Layout.take?, LayoutPart.read?, takeMark?, Option.bind_map]
  split
  · rw [Option.bind_some]
    dsimp only [Function.comp_apply]
    rw [Layout.take?_append, ClockFields.take?_chars _ _ hrest, Option.bind_map]
    cases hseconds : fields.clock.seconds with
    | none => rfl
    | some seconds => simp [localTime, hseconds]
  · rfl

theorem read?_timestamp (hvalid : fields.IsValid) :
    Timestamp.read? fields.dateChars =
      if fields.clock.seconds.isSome = true ∧ fields.zone.any ZoneFields.isStandard = true then
        some fields.moment
      else none := by
  have hsign : startsWithSign fields.dateChars = false := by
    obtain ⟨d, rest, hd, hcons⟩ := fields.dateChars_eq_cons
    rw [hcons, startsWithSign_of_isDigit hd]
  have hseparator (rest : List Char) :
      Timestamp.takeSeparator? (fields.separator :: rest) = some rest := by
    rw [separator]
    cases fields.spaced <;> rfl
  have hrest : fields.zoneChars.head? ≠ some ':' := fun hc => by
    cases fields.head_zoneChars ':' hc
  rw [Timestamp.read?_eq hsign, dateChars, DateFields.take?_chars, Option.bind_some]
  dsimp only
  rw [hseparator, Option.bind_some, ClockFields.take?_chars _ _ hrest]
  cases hseconds : fields.clock.seconds with
  | none => simp
  | some seconds =>
      have htotal : fields.localTime.seconds = fields.moment.seconds + fields.moment.offset := by
        simp [moment]
      have hmoment := Timestamp.moment?_eq hvalid.localTime htotal
      rw [Option.map_some, Option.bind_some]
      dsimp only
      rw [seconds.readFraction?_chars fields.head_zoneChars, Option.bind_some]
      dsimp only
      rw [zoneChars]
      cases hzone : fields.zone with
      | none => simp [Timestamp.readOffset?]
      | some zone =>
          rw [Option.elim_some, ZoneFields.readOffset?_chars (hvalid.zone zone hzone)]
          simp only [moment, localTime, nanos, ahead, hseconds, hzone, Option.elim_some] at hmoment
          cases hstandard : zone.isStandard <;>
            simp [hstandard, hmoment, moment, localTime, nanos, ahead, hseconds, hzone]

/-- The separator of date and time is the first one of the text. -/
theorem separators_dateChars :
    ∃ tail, separators fields.dateChars = fields.separator :: tail := by
  have hread : Layout.dashedDate.readLocal? {} fields.date.chars =
      some { year := (fields.date.year : Nat), month := fields.date.month,
             day := fields.date.day } := by
    rw [Layout.readLocal?_eq_some_iff]
    simpa using fields.date.take?_chars []
  have hdate : separators fields.date.chars = [] :=
    (Layout.spells_of_readLocal? hread).separators_eq
  have hseparator : separators [fields.separator] = [fields.separator] := by
    rw [separator]
    cases fields.spaced <;> rfl
  refine ⟨separators (fields.clock.chars ++ fields.zoneChars), ?_⟩
  rw [dateChars, List.append_cons, separators_append, separators_append, hdate, hseparator]
  rfl

/-- No layout reads the text whose first separator is another one. -/
theorem read?_disjoint {layout : Layout} (hT : layout.separators.head? ≠ some 'T')
    (hspace : layout.separators.head? ≠ some ' ') {m : Moment}
    (h : layout.read? fields.dateChars = some m) : False := by
  obtain ⟨tail, hseparators⟩ := fields.separators_dateChars
  rw [(Layout.spells_of_read? h).separators_eq] at hseparators
  rw [hseparators, separator] at hT hspace
  cases hspaced : fields.spaced <;> simp [hspaced] at hT hspace

/-- A clock with seconds and nothing after it but a `Z` belongs to a date. -/
theorem isDate_of_tail {seconds : SecondFields} (hseconds : fields.clock.seconds = some seconds)
    (htail : seconds.fractionChars ++ fields.zoneChars ∈ [[], ['Z']]) : fields.isDate = true := by
  rw [SecondFields.fractionChars, zoneChars] at htail
  rw [isDate, hseconds]
  cases hfraction : seconds.fraction with
  | some fraction => simp [hfraction, Fraction.chars] at htail
  | none =>
      rw [hfraction] at htail
      cases hzone : fields.zone with
      | none => simp [hfraction]
      | some zone =>
          cases zone with
          | utc => rfl
          | offset negative colon hours minutes =>
              cases negative <;> simp [hzone, ZoneFields.chars] at htail

/-- What a layout with a time of day reads is a date. -/
theorem isDate_of_read?_timed {mark : Char} {more : Layout} (hmore : more ∈ [[], [.mark 'Z']])
    {m : Moment} (h : Layout.read? (Layout.dashedDate ++ .mark mark :: (Layout.clock ++ more))
      fields.dateChars = some m) : fields.isDate = true := by
  obtain ⟨t, htake, -⟩ := Layout.read?_eq_some_iff.mp h
  rw [take?_timed] at htake
  split at htake
  · obtain ⟨seconds, hseconds, htail⟩ := Option.bind_eq_some_iff.mp htake
    refine isDate_of_tail hseconds ?_
    simp only [List.mem_cons, List.not_mem_nil, or_false] at hmore
    rcases hmore with rfl | rfl
    · have hnil : seconds.fractionChars ++ fields.zoneChars = [] :=
        congrArg Prod.snd (Option.some.inj htail)
      rw [hnil]
      exact List.mem_cons_self
    · rw [Layout.take?, LayoutPart.read?, Option.bind_map, Option.bind_eq_some_iff] at htail
      obtain ⟨rest, hmark, hrest⟩ := htail
      have hnil : rest = [] := congrArg Prod.snd (Option.some.inj hrest)
      rw [takeMark?_eq_some hmark, hnil]
      exact List.mem_cons_of_mem _ List.mem_cons_self
  · cases htake

/-- What is read as a timestamp is a date. -/
theorem isDate_of_read?_timestamp (hvalid : fields.IsValid) {m : Moment}
    (h : Timestamp.read? fields.dateChars = some m) : fields.isDate = true := by
  rw [read?_timestamp hvalid] at h
  split at h
  · next hfields =>
    obtain ⟨seconds, hseconds⟩ := Option.isSome_iff_exists.mp hfields.1
    rw [isDate, hseconds]
    cases hzone : fields.zone with
    | none =>
        rw [hzone] at hfields
        cases hfields.2
    | some zone =>
        rw [hzone] at hfields
        exact hfields.2
  · cases h

/-- Without a fraction and a zone, seconds are read in the layout with the separator. -/
theorem read?_timed (hvalid : fields.IsValid) {seconds : SecondFields}
    (hseconds : fields.clock.seconds = some seconds) (hfraction : seconds.fraction = none)
    (hzone : fields.zone = none) :
    Layout.read? (Layout.dashedDate ++ .mark fields.separator :: Layout.clock) fields.dateChars =
      some fields.moment := by
  have htake := fields.take?_timed fields.separator []
  rw [List.append_nil, if_pos rfl, hseconds, Option.bind_some] at htake
  refine Layout.read?_eq_some_iff.mpr ⟨fields.localTime, ?_, hvalid.localTime, ?_⟩
  · rw [htake]
    simp [Layout.take?, SecondFields.fractionChars, hfraction, zoneChars, hzone]
  · simp [moment, Moment.ofUtc, nanos, ahead, hseconds, SecondFields.nanos, hfraction, hzone]

/-- Some format reads a date. -/
theorem exists_format_of_isDate (hvalid : fields.IsValid) (hdate : fields.isDate = true) :
    ∃ format ∈ dateFormats, format.read? fields.dateChars = some fields.moment := by
  unfold isDate at hdate
  split at hdate
  · cases hdate
  · next hseconds hzone =>
    refine ⟨⟨"RFC 3339", Timestamp.read?⟩, by simp [dateFormats], ?_⟩
    simp [read?_timestamp hvalid, hseconds, hzone, hdate]
  · next hseconds hzone =>
    have htimed := read?_timed hvalid hseconds (Option.isNone_iff_eq_none.mp hdate) hzone
    rw [separator] at htimed
    cases hspaced : fields.spaced with
    | true =>
        rw [hspaced] at htimed
        exact ⟨⟨"YYYY-MM-DD hh:mm:ss", Layout.read? _⟩, by simp [dateFormats], htimed⟩
    | false =>
        rw [hspaced] at htimed
        exact ⟨⟨"YYYY-MM-DDThh:mm:ss", Layout.read? _⟩, by simp [dateFormats], htimed⟩

/-- What any of the formats reads is a date. -/
theorem isDate_of_mem_dateFormats (hvalid : fields.IsValid) {format : DateFormat}
    (hformat : format ∈ dateFormats) {m : Moment}
    (h : format.read? fields.dateChars = some m) : fields.isDate = true := by
  have htimed {mark : Char}
      (h : Layout.read? (Layout.dashedDate ++ .mark mark :: Layout.clock) fields.dateChars =
        some m) : fields.isDate = true := by
    rw [← List.append_nil Layout.clock] at h
    exact isDate_of_read?_timed List.mem_cons_self h
  simp only [dateFormats, List.mem_cons, List.not_mem_nil, or_false] at hformat
  rcases hformat with rfl | rfl | rfl | rfl | rfl | rfl | rfl
  · exact isDate_of_read?_timestamp hvalid h
  · exact (read?_disjoint (by decide) (by decide) h).elim
  · dsimp only at h
    rw [List.append_assoc, List.cons_append] at h
    exact isDate_of_read?_timed (List.mem_cons_of_mem _ List.mem_cons_self) h
  · exact htimed h
  · exact htimed h
  · exact (read?_disjoint (by decide) (by decide) h).elim
  · exact (read?_disjoint (by decide) (by decide) h).elim

/-- The text is a date if and only if the fields make one. -/
theorem ofText?_dateChars (hvalid : fields.IsValid) :
    Moment.ofText? (String.ofList fields.dateChars) =
      if fields.isDate then some fields.moment else none := by
  cases hdate : fields.isDate with
  | true =>
      obtain ⟨format, hformat, hread⟩ := exists_format_of_isDate hvalid hdate
      exact Moment.ofText?_of_mem hformat (by rw [String.toList_ofList, hread])
  | false =>
      rw [Moment.ofText?, String.toList_ofList, List.findSome?_eq_none_iff.mpr]
      · rfl
      intro format hformat
      rw [Option.eq_none_iff_forall_not_mem]
      intro m hm
      rw [isDate_of_mem_dateFormats hvalid hformat hm] at hdate
      cases hdate

end DateTimeFields

/-! ### The characters of the fields -/

theorem goesOn_of_isDigit {c : Char} (h : c.isDigit = true) : Reader.goesOn c = true := by
  rw [Reader.goesOn, h]
  rfl

theorem isFieldChar_of_goesOn {c : Char} (h : Reader.goesOn c = true) : isFieldChar c = true := by
  simp only [Reader.goesOn, Bool.or_eq_true, beq_iff_eq] at h
  rcases h with ((((h | rfl) | rfl) | rfl) | rfl) | rfl
  · exact isFieldChar_of_isDigit h
  all_goals rfl

theorem goesOn_paddedDigits (width n : Nat) : ∀ c ∈ paddedDigits width n, Reader.goesOn c = true :=
  fun c hc => goesOn_of_isDigit (isDigit_paddedDigits width n c hc)

theorem goesOn_optional {α : Type} {chars : α → List Char}
    (h : ∀ x, ∀ c ∈ chars x, Reader.goesOn c = true) (x : Option α) :
    ∀ c ∈ x.elim [] chars, Reader.goesOn c = true := by
  cases x with
  | none => exact List.forall_mem_nil _
  | some x => exact h x

theorem Fraction.goesOn_chars (fraction : Fraction) :
    ∀ c ∈ fraction.chars, Reader.goesOn c = true :=
  List.forall_mem_cons.mpr ⟨rfl, fun c hc => goesOn_of_isDigit (fraction.isDigit c hc)⟩

theorem SecondFields.goesOn_chars (seconds : SecondFields) :
    ∀ c ∈ seconds.chars, Reader.goesOn c = true :=
  List.forall_mem_cons.mpr ⟨rfl, List.forall_mem_append.mpr
    ⟨goesOn_paddedDigits _ _, goesOn_optional Fraction.goesOn_chars seconds.fraction⟩⟩

theorem ClockFields.goesOn_chars (clock : ClockFields) :
    ∀ c ∈ clock.chars, Reader.goesOn c = true := by
  rw [chars]
  simp only [List.forall_mem_append, List.forall_mem_cons]
  exact ⟨goesOn_paddedDigits _ _, rfl, goesOn_paddedDigits _ _,
    goesOn_optional SecondFields.goesOn_chars clock.seconds⟩

theorem ZoneFields.goesOn_chars (zone : ZoneFields) :
    ∀ c ∈ zone.chars, Reader.goesOn c = true := by
  cases zone with
  | utc => exact List.forall_mem_singleton.mpr rfl
  | offset negative colon hours minutes =>
      rw [chars]
      simp only [List.forall_mem_append, List.forall_mem_cons]
      refine ⟨?_, goesOn_paddedDigits _ _, ?_, goesOn_paddedDigits _ _⟩
      · cases negative <;> rfl
      · cases colon with
        | true => exact List.forall_mem_singleton.mpr rfl
        | false => exact List.forall_mem_nil _

theorem DateFields.goesOn_chars (date : DateFields) :
    ∀ c ∈ date.chars, Reader.goesOn c = true := by
  rw [chars]
  simp only [List.forall_mem_append, List.forall_mem_cons]
  exact ⟨goesOn_paddedDigits _ _, rfl, goesOn_paddedDigits _ _, rfl, goesOn_paddedDigits _ _⟩

namespace DateTimeFields
variable (fields : DateTimeFields)

theorem goesOn_time : ∀ c ∈ fields.clock.chars ++ fields.zoneChars, Reader.goesOn c = true :=
  List.forall_mem_append.mpr
    ⟨fields.clock.goesOn_chars, goesOn_optional ZoneFields.goesOn_chars fields.zone⟩

theorem not_mem_dateChars {c : Char} (h : Reader.goesOn c = false) (hT : c ≠ 'T')
    (hspace : c ≠ ' ') : c ∉ fields.dateChars := by
  have hnot {cs : List Char} (hcs : ∀ d ∈ cs, Reader.goesOn d = true) : c ∉ cs := fun hc => by
    rw [hcs c hc] at h
    cases h
  have hseparator : c ≠ fields.separator := by
    rw [separator]
    cases fields.spaced
    · exact hT
    · exact hspace
  rw [dateChars, List.mem_append, List.mem_cons, not_or, not_or]
  exact ⟨hnot fields.date.goesOn_chars, hseparator, hnot fields.goesOn_time⟩

theorem isBoundText_dateChars : IsBoundText fields.dateChars := by
  have hdate : fields.date.chars ≠ [] := by simp [DateFields.chars]
  have htime : fields.clock.chars ++ fields.zoneChars ≠ [] := by simp [ClockFields.chars]
  exact .of_separated hdate (fun c hc => isFieldChar_of_goesOn (fields.date.goesOn_chars c hc)) htime
    (fun c hc => isFieldChar_of_goesOn (fields.goesOn_time c hc)) _

/-- A date is no number. -/
theorem ofNumber?_dateChars : Scalar.ofNumber? (String.ofList fields.dateChars) = none := by
  have hyear : IsInteger (paddedDigits 4 fields.date.year) :=
    .of_digits (List.ne_nil_of_length_eq_add_one (length_paddedDigits 4 _))
      (isDigit_paddedDigits 4 _)
  have hdecimal : Decimal.ofText? fields.dateChars = none := by
    rw [dateChars, DateFields.chars, List.append_assoc, List.cons_append]
    exact hyear.decimal_eq_none (by simp) _
  rw [Scalar.ofNumber?, Binary64.ofText?, String.toList_ofList, hdecimal]
  rfl

end DateTimeFields

/-! ### Literals that nothing accepts -/

/-- A literal that no detector accepts is a string; only those have to be looked at that accept
literals with its first character. -/
theorem resolve_of_head {literal : String} {c : Char} (hhead : c ∈ literal.toList.head?)
    (hstar : '*' ∉ literal.toList)
    (h : ∀ entry ∈ detectors, headKind c = (if entry.1 = .date then .number else entry.1) →
      entry.2.accepts literal = false) :
    resolve literal = .ok (.scalar (.string literal)) := by
  have hnone : ∀ entry ∈ detectors, ¬entry.2.accepts literal = true := by
    intro entry hentry haccepts
    by_cases hkind : entry.1 = .wildcard
    · obtain rfl : entry = (.wildcard, Detector.wildcard) :=
        eq_of_kind_eq hentry (by simp [detectors]) hkind
      exact hstar (Detector.wildcard_accepts.mp haccepts)
    · obtain ⟨d, hd, hheadKind⟩ := headKind_of_accepts hentry hkind haccepts
      obtain rfl : c = d := Option.some.inj (hhead.symm.trans hd)
      rw [h entry hentry hheadKind] at haccepts
      cases haccepts
  rw [resolve, detect, ← detectFirst_filter, List.filter_eq_nil_iff.mpr hnone]
  rfl

section unread
variable {text : String}

theorem resolve_of_digit {d : Char} (hhead : d ∈ text.toList.head?) (hd : d.isDigit = true)
    (hstar : '*' ∉ text.toList) (hnone : ∀ dates, Scalar.ofText? dates text = none) :
    resolve text = .ok (.scalar (.string text)) := by
  have hslash : d ≠ '/' := by
    rintro rfl
    cases hd
  have hkind : headKind d = .number := headKind_of_isFieldChar (isFieldChar_of_isDigit hd) hslash
  have hdate : Detector.date.accepts text = false := by
    have hread : Scalar.ofDate? text = none := hnone true
    rw [Detector.accepts, Detector.date, hread]
    rfl
  have hnumber : Detector.number.accepts text = false := by
    have hread : Scalar.ofNumber? text = none := hnone false
    rw [Detector.accepts, Detector.number, hread]
    rfl
  refine resolve_of_head hhead hstar ?_
  simp [detectors, hkind, hdate, hnumber]

theorem resolve_of_comparison (comparison : Comparison) (htext : IsBoundText text.toList)
    (hstar : '*' ∉ text.toList) (hnone : ∀ dates, Scalar.ofText? dates text = none) :
    resolve (comparison.symbol ++ text) = .ok (.scalar (.string (comparison.symbol ++ text))) := by
  have hbound : Scalar.ofBound? text = none := by
    have hdate : Scalar.ofDate? text = none := hnone true
    have hnumber : Scalar.ofNumber? text = none := hnone false
    rw [Scalar.ofBound?, hdate, hnumber, ite_self]
  have htrim : trim text.toList = text.toList := by
    have htrim := htext.trim_eq (List.forall_mem_nil _) (List.forall_mem_nil _)
    rwa [List.nil_append, List.append_nil] at htrim
  have hcomparison : Detector.comparison.accepts (comparison.symbol ++ text) = false := by
    rw [Detector.accepts, Detector.comparison, String.toList_append,
      Detector.comparison?_symbol comparison htext.head_ne_equals]
    dsimp only
    rw [htrim, String.ofList_toList, hbound]
    rfl
  have hstar : '*' ∉ (comparison.symbol ++ text).toList := by
    rw [String.toList_append, List.mem_append]
    rintro (h | h)
    · cases comparison <;> simp [Comparison.symbol] at h
    · exact hstar h
  have hhead : ∃ c ∈ (comparison.symbol ++ text).toList.head?, headKind c = .comparison := by
    cases comparison
    · exact ⟨'>', by simp [Comparison.symbol], rfl⟩
    · exact ⟨'<', by simp [Comparison.symbol], rfl⟩
    · exact ⟨'>', by simp [Comparison.symbol], rfl⟩
    · exact ⟨'<', by simp [Comparison.symbol], rfl⟩
  obtain ⟨c, hc, hkind⟩ := hhead
  refine resolve_of_head hc hstar ?_
  simp [detectors, hkind, hcomparison]

end unread

/-! ### Dates with a time of day -/

namespace DateTimeFields
variable {fields : DateTimeFields}

theorem text_of_comparison {comparison : Comparison} (h : fields.comparison = some comparison) :
    fields.text = comparison.symbol ++ String.ofList fields.dateChars := by
  rw [text, chars, operator, h, Option.elim_some, String.ofList_append, String.ofList_toList]

theorem text_of_none (h : fields.comparison = none) :
    fields.text = String.ofList fields.dateChars := by
  rw [text, chars, operator, h]
  rfl

theorem resolve_of_isDate (hvalid : fields.IsValid) (hdate : fields.isDate = true) :
    resolve fields.text = .ok fields.resolved := by
  have hmoment : Scalar.ofText? true (String.ofList fields.dateChars) =
      some (.date fields.moment) := by
    rw [Scalar.ofText?, if_pos rfl, Scalar.ofDate?, ofText?_dateChars hvalid, if_pos hdate]
    rfl
  cases hcomparison : fields.comparison with
  | some comparison =>
      have hblanks : ∀ c ∈ "".toList, isBlank c = true := by simp
      have hresolve := resolve_compared comparison hblanks hmoment
      rw [String.append_empty] at hresolve
      rw [text_of_comparison hcomparison, hresolve, resolved, hcomparison]
  | none =>
      have hunmarked : ∀ c ∈ ['[', '>', '<', '/', '*'],
          c ∉ (String.ofList fields.dateChars).toList := by
        rw [String.toList_ofList]
        simp only [List.forall_mem_cons, List.not_mem_nil, false_implies, implies_true, and_true]
        exact ⟨fields.not_mem_dateChars rfl (by decide) (by decide),
          fields.not_mem_dateChars rfl (by decide) (by decide),
          fields.not_mem_dateChars rfl (by decide) (by decide),
          fields.not_mem_dateChars rfl (by decide) (by decide),
          fields.not_mem_dateChars rfl (by decide) (by decide)⟩
      have hdetector : Detector.date (String.ofList fields.dateChars) =
          .ok (some (.scalar (.date fields.moment))) :=
        congrArg (fun found => Except.ok (Option.map Resolved.scalar found)) hmoment
      rw [text_of_none hcomparison, resolve_of_unmarked hunmarked, detectFirst, hdetector, resolved,
        hcomparison]
      rfl

theorem resolve_of_not_isDate (hvalid : fields.IsValid) (hdate : fields.isDate = false) :
    resolve fields.text = .ok (.scalar (.string fields.text)) := by
  have hstar : '*' ∉ (String.ofList fields.dateChars).toList := by
    rw [String.toList_ofList]
    exact fields.not_mem_dateChars rfl (by decide) (by decide)
  have hnone : ∀ dates, Scalar.ofText? dates (String.ofList fields.dateChars) = none := by
    intro dates
    cases dates with
    | false => exact fields.ofNumber?_dateChars
    | true =>
        rw [Scalar.ofText?, if_pos rfl, Scalar.ofDate?, ofText?_dateChars hvalid, hdate]
        rfl
  cases hcomparison : fields.comparison with
  | some comparison =>
      have hbound : IsBoundText (String.ofList fields.dateChars).toList := by
        rw [String.toList_ofList]
        exact fields.isBoundText_dateChars
      rw [text_of_comparison hcomparison]
      exact resolve_of_comparison comparison hbound hstar hnone
  | none =>
      obtain ⟨d, rest, hd, hcons⟩ := fields.dateChars_eq_cons
      rw [text_of_none hcomparison]
      refine resolve_of_digit ?_ hd hstar hnone
      rw [String.toList_ofList, hcons]
      rfl

end DateTimeFields

/-- **Which literals with a time of day are dates.**  A literal that is scanned as a date with a time
of day is written of fields.  Behind the name of a field it is one token; and if there are such a
day, such a time and such a zone, it stands for that moment, or for a comparison with it, or else for
itself. -/
theorem resolve_dateTime :
    (∀ text : String, Reader.acceptsAll Reader.dateTime text.toList = true ↔
      ∃ fields : DateTimeFields, fields.text = text) ∧
    ∀ fields : DateTimeFields, fields.IsValid →
      (∀ name, IsFieldName name → tokenize (name ++ ":" ++ fields.text) =
        .ok [.word name, .colon, .literal .dateTime fields.text]) ∧
      resolve fields.text =
        .ok (if fields.isDate then fields.resolved else .scalar (.string fields.text)) := by
  refine ⟨fun text => DateTimeFields.acceptsAll_iff, fun fields hvalid => ⟨fun name hname =>
    fields.tokenize_eq hname, ?_⟩⟩
  cases hdate : fields.isDate with
  | true => exact DateTimeFields.resolve_of_isDate hvalid hdate
  | false => exact DateTimeFields.resolve_of_not_isDate hvalid hdate

/-- A comparison with a leap day, with a space, more digits than nanoseconds and a negative offset,
and a time with a zone but without seconds. -/
theorem resolve_dateTime_offset :
    ∃ leap minutes : DateTimeFields, leap.IsValid ∧ minutes.IsValid ∧ IsFieldName "created" ∧
      Reader.acceptsAll Reader.dateTime
        ">=2024-02-29 23:59:07.1234567891-05:30".toList = true ∧
      leap.text = ">=2024-02-29 23:59:07.1234567891-05:30" ∧
      tokenize "created:>=2024-02-29 23:59:07.1234567891-05:30" =
        .ok [.word "created", .colon,
          .literal .dateTime ">=2024-02-29 23:59:07.1234567891-05:30"] ∧
      resolve ">=2024-02-29 23:59:07.1234567891-05:30" =
        .ok (.ordered (.compared .greaterEqual
          (.date ⟨1709270947, 123456789, -19800, by decide⟩))) ∧
      minutes.text = "2023-01-15T10:30+02:00" ∧
      resolve "2023-01-15T10:30+02:00" = .ok (.scalar (.string "2023-01-15T10:30+02:00")) := by
  let fraction : Fraction := ⟨"1234567891".toList, by simp, List.all_eq_true.mp (by cbv)⟩
  let leap : DateTimeFields :=
    ⟨some .greaterEqual, ⟨⟨2024, by decide⟩, ⟨2, by decide⟩, ⟨29, by decide⟩⟩, true,
      ⟨⟨23, by decide⟩, ⟨59, by decide⟩, some ⟨⟨7, by decide⟩, some fraction⟩⟩,
      some (.offset true true ⟨5, by decide⟩ ⟨30, by decide⟩)⟩
  let minutes : DateTimeFields :=
    ⟨none, ⟨⟨2023, by decide⟩, ⟨1, by decide⟩, ⟨15, by decide⟩⟩, false,
      ⟨⟨10, by decide⟩, ⟨30, by decide⟩, none⟩,
      some (.offset false true ⟨2, by decide⟩ ⟨0, by decide⟩)⟩
  have hname : IsFieldName "created" :=
    ⟨⟨'c', rfl, by decide, by decide, by decide, by decide⟩, List.all_eq_true.mp (by cbv), by decide⟩
  have hleap : leap.IsValid := ⟨by decide, by simp [leap, ZoneFields.isValid]⟩
  have hminutes : minutes.IsValid := ⟨by decide, by simp [minutes, ZoneFields.isValid]⟩
  have hleapText : leap.text = ">=2024-02-29 23:59:07.1234567891-05:30" := by cbv
  have hminutesText : minutes.text = "2023-01-15T10:30+02:00" := by cbv
  have hmoment : leap.moment = ⟨1709270947, 123456789, -19800, by decide⟩ := by cbv
  obtain ⟨haccepts, hfields⟩ := resolve_dateTime
  obtain ⟨htokens, hresolve⟩ := hfields leap hleap
  obtain ⟨-, hstring⟩ := hfields minutes hminutes
  have htoken := htokens "created" hname
  rw [hleapText, if_pos (by rfl), DateTimeFields.resolved, hmoment] at hresolve
  rw [hleapText] at htoken
  rw [hminutesText] at hstring
  exact ⟨leap, minutes, hleap, hminutes, hname, (haccepts _).mpr ⟨leap, hleapText⟩, hleapText,
    htoken, hresolve, hminutesText, hstring⟩

end QueryFilter
