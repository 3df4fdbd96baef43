import Mathlib
import QueryFilter.Literal
import QueryFilter.Proofs.Moment.Timestamp
import QueryFilter.Proofs.Token.FieldName

/-! # The fields of a date with a time of day

The scanner takes a date with a time of day off a text as one literal, field by field.
`DateTimeFields` holds the fields with all that can be left out, and `DateTimeFields.chars` writes
them.  The literals that the scanner takes are exactly the texts of fields
(`DateTimeFields.acceptsAll_iff`), and behind the name of a field and a colon each of them is one
token (`DateTimeFields.tokenize_eq`). -/

namespace QueryFilter

/-! ### Digits -/

section digits
variable {cs a rest : List Char} {width : Nat}

theorem digitChar_digitValue {c : Char} (h : c.isDigit = true) :
    digitValue c < 10 ∧ (digitValue c).digitChar = c := by
  have hbounds : 48 ≤ c.toNat ∧ c.toNat ≤ 57 := by
    simpa [Char.isDigit, UInt32.le_iff_toNat_le] using h
  have hlt : digitValue c < 10 := by
    rw [digitValue]
    omega
  refine ⟨hlt, Char.toNat_inj.mp ?_⟩
  rw [Nat.toNat_digitChar_of_lt_ten hlt, digitValue]
  omega

theorem digitsValue_lt {digits : List Char} (h : ∀ c ∈ digits, c.isDigit = true) :
    digitsValue digits < 10 ^ digits.length := by
  induction digits using List.reverseRecOn with
  | nil => decide
  | append_singleton digits d ih =>
      obtain ⟨hdigits, hd⟩ := List.forall_mem_append.mp h
      have hvalue : digitsValue [d] < 10 := by
        simpa [digitsValue, digitsValueFrom] using (digitChar_digitValue (hd d (by simp))).1
      have hlt := ih hdigits
      rw [digitsValue_append, List.length_append, List.length_singleton, Nat.pow_succ]
      omega

/-- Digits are the digits of their value. -/
theorem paddedDigits_digitsValue {digits : List Char} (h : ∀ c ∈ digits, c.isDigit = true) :
    paddedDigits digits.length (digitsValue digits) = digits := by
  induction digits using List.reverseRecOn with
  | nil => rfl
  | append_singleton digits d ih =>
      obtain ⟨hdigits, hd⟩ := List.forall_mem_append.mp h
      obtain ⟨hlt, hchar⟩ := digitChar_digitValue (hd d (by simp))
      have hvalue : digitsValue [d] = digitValue d := by simp [digitsValue, digitsValueFrom]
      have hdiv : (10 ^ 1 * digitsValue digits + digitValue d) / 10 = digitsValue digits := by omega
      have hmod : (10 ^ 1 * digitsValue digits + digitValue d) % 10 = digitValue d := by omega
      rw [digitsValue_append, hvalue, List.length_append, List.length_singleton, paddedDigits, hdiv,
        hmod, ih hdigits, hchar]

theorem paddedDigits_eq_cons (width n : Nat) :
    ∃ d rest, d.isDigit = true ∧ paddedDigits (width + 1) n = d :: rest := by
  obtain ⟨d, rest, hcons⟩ :=
    List.exists_cons_of_length_eq_add_one (length_paddedDigits (width + 1) n)
  exact ⟨d, rest, isDigit_paddedDigits (width + 1) n d (by simp [hcons]), hcons⟩

namespace Reader

theorem digits_append (hlength : a.length = width) (h : ∀ c ∈ a, c.isDigit = true)
    (rest : List Char) : digits width (a ++ rest) = some (a, rest) := by
  subst hlength
  induction a with
  | nil => rfl
  | cons d a ih =>
      obtain ⟨hd, ha⟩ := List.forall_mem_cons.mp h
      have hone : digit (d :: (a ++ rest)) = some ([d], a ++ rest) := by simp [digit, one, hd]
      exact seq_eq_some.mpr ⟨[d], a, a ++ rest, hone, ih ha, rfl⟩

theorem digits_padded (width n : Nat) (rest : List Char) :
    digits width (paddedDigits width n ++ rest) = some (paddedDigits width n, rest) :=
  digits_append (length_paddedDigits width n) (isDigit_paddedDigits width n) rest

theorem length_digits (h : digits width cs = some (a, rest)) : a.length = width := by
  induction width generalizing cs a with
  | zero =>
      cases h
      rfl
  | succ width ih =>
      obtain ⟨b, c, mid, hone, hdigits, rfl⟩ := seq_eq_some.mp h
      rw [List.length_append, length_one hone, ih hdigits, Nat.add_comm]

theorem exists_padded_of_digits (h : digits width cs = some (a, rest)) :
    ∃ n : Fin (10 ^ width), a = paddedDigits width n := by
  have hlength := length_digits h
  have hdigits := only_digits (fun _ hc => hc) width _ _ _ h
  subst hlength
  exact ⟨⟨digitsValue a, digitsValue_lt hdigits⟩, (paddedDigits_digitsValue hdigits).symm⟩

end Reader

end digits

/-! ### Readers of fields -/

namespace Reader

/-- The texts that the reader takes are those that `chars` writes. -/
structure Reads {α : Type} (r : Reader) (chars : α → List Char) : Prop where
  sound : ∀ {cs a rest}, r cs = some (a, rest) → ∃ x, a = chars x
  complete : ∀ x, r (chars x) = some (chars x, [])

section reads
variable {α : Type} {r : Reader} {chars : α → List Char} {p : Char → Bool}

/-- A text of fields is read in front of anything that does not go on with it. -/
theorem Reads.again (h : Reads r chars) (hfirm : Firm p r) (x : α) {tail : List Char}
    (htail : ∀ c ∈ tail.head?, p c = false) : r (chars x ++ tail) = some (chars x, tail) :=
  hfirm _ _ _ tail (h.complete x) htail

theorem Reads.optional (h : Reads r chars) (hnil : r [] = none) :
    Reads (optional r) fun x : Option α => x.elim [] chars where
  sound {cs a rest} hr := by
    simp only [Reader.optional, Option.or_eq_some_iff, Option.some.injEq, Prod.mk.injEq] at hr
    rcases hr with hr | ⟨-, rfl, -⟩
    · obtain ⟨x, rfl⟩ := h.sound hr
      exact ⟨some x, rfl⟩
    · exact ⟨none, rfl⟩
  complete
    | none => by simp [Reader.optional, hnil]
    | some x => by simp [Reader.optional, h.complete x]

theorem Reads.acceptsAll_iff (h : Reads r chars) (hexact : Exact r) {cs : List Char} :
    acceptsAll r cs = true ↔ ∃ x, chars x = cs := by
  constructor
  · intro haccepts
    unfold acceptsAll at haccepts
    split at haccepts
    · next a hr =>
      obtain ⟨x, rfl⟩ := h.sound hr
      exact ⟨x, by rw [hexact _ _ _ hr, List.append_nil]⟩
    · cases haccepts
  · rintro ⟨x, rfl⟩
    rw [acceptsAll, h.complete x]

end reads

end Reader

/-! ### Fields -/

/-- The digits behind a decimal point. -/
structure Fraction where
  digits : List Char
  ne_nil : digits ≠ []
  isDigit : ∀ c ∈ digits, c.isDigit = true

/-- `YYYY-MM-DD` -/
structure DateFields where
  year : Fin (10 ^ 4)
  month : Fin (10 ^ 2)
  day : Fin (10 ^ 2)

/-- `:ss`, with an optional fraction. -/
structure SecondFields where
  value : Fin (10 ^ 2)
  fraction : Option Fraction

/-- `hh:mm`, with optional seconds. -/
structure ClockFields where
  hour : Fin (10 ^ 2)
  minute : Fin (10 ^ 2)
  seconds : Option SecondFields

/-- `Z`, or a signed offset with or without a colon. -/
inductive ZoneFields where
  | utc
  | offset (negative colon : Bool) (hours minutes : Fin (10 ^ 2))

/-- A date and a time of day, with a space or the letter `T` between them, and possibly with an
operator in front. -/
structure DateTimeFields where
  comparison : Option Comparison
  date : DateFields
  spaced : Bool
  clock : ClockFields
  zone : Option ZoneFields

def Fraction.chars (fraction : Fraction) : List Char := '.' :: fraction.digits

def DateFields.chars (date : DateFields) : List Char :=
  paddedDigits 4 date.year ++ '-' :: (paddedDigits 2 date.month ++ '-' :: paddedDigits 2 date.day)

/-- The fraction of the seconds as it is written. -/
def SecondFields.fractionChars (seconds : SecondFields) : List Char :=
  seconds.fraction.elim [] Fraction.chars

def SecondFields.chars (seconds : SecondFields) : List Char :=
  ':' :: (paddedDigits 2 seconds.value ++ seconds.fractionChars)

def ClockFields.chars (clock : ClockFields) : List Char :=
  paddedDigits 2 clock.hour ++ ':' :: (paddedDigits 2 clock.minute ++
    clock.seconds.elim [] SecondFields.chars)

def ZoneFields.chars : ZoneFields → List Char
  | utc => ['Z']
  | offset negative colon hours minutes =>
    (if negative then '-' else '+') :: (paddedDigits 2 hours ++
      ((if colon then [':'] else []) ++ paddedDigits 2 minutes))

namespace DateTimeFields

/-- The operator in front, as it is written. -/
def operator (fields : DateTimeFields) : List Char :=
  fields.comparison.elim [] fun comparison => comparison.symbol.toList

def separator (fields : DateTimeFields) : Char := if fields.spaced then ' ' else 'T'

def zoneChars (fields : DateTimeFields) : List Char := fields.zone.elim [] ZoneFields.chars

/-- The fields without the operator, as they are written. -/
def dateChars (fields : DateTimeFields) : List Char :=
  fields.date.chars ++ fields.separator :: (fields.clock.chars ++ fields.zoneChars)

def chars (fields : DateTimeFields) : List Char := fields.operator ++ fields.dateChars

def text (fields : DateTimeFields) : String := String.ofList fields.chars

end DateTimeFields

/-! ### Reading the fields -/

namespace Reader

theorem reads_comparison :
    Reads comparison fun sign : Option Comparison =>
      sign.elim [] fun comparison => comparison.symbol.toList where
  sound {cs a rest} h := by
    obtain ⟨-, ha⟩ := comparison_eq_some h
    simp only [List.mem_cons, List.not_mem_nil, or_false] at ha
    rcases ha with rfl | rfl | rfl | rfl | rfl
    · exact ⟨some .greaterEqual, rfl⟩
    · exact ⟨some .lessEqual, rfl⟩
    · exact ⟨some .greater, rfl⟩
    · exact ⟨some .less, rfl⟩
    · exact ⟨none, rfl⟩
  complete
    | none => rfl
    | some .greaterEqual => rfl
    | some .lessEqual => rfl
    | some .greater => rfl
    | some .less => rfl

theorem reads_fraction : Reads (chain [char '.', run1 Char.isDigit]) Fraction.chars where
  sound {cs a rest} h := by
    obtain ⟨_, _, _, hpoint, hmore, rfl⟩ := seq_eq_some.mp h
    obtain ⟨digits, _, _, hdigits, hnothing, rfl⟩ := seq_eq_some.mp hmore
    cases hnothing
    obtain ⟨rfl, -⟩ := char_eq_some.mp hpoint
    have honly : Only Char.isDigit (run1 Char.isDigit) :=
      only_seq (only_one fun _ hc => hc) (only_run fun _ hc => hc)
    refine ⟨⟨digits, progress_run1 _ _ _ _ hdigits, honly _ _ _ hdigits⟩, ?_⟩
    simp [Fraction.chars]
  complete fraction := by
    obtain ⟨digits, hne, hdigits⟩ := fraction
    obtain ⟨d, more, rfl⟩ := List.exists_cons_of_ne_nil hne
    obtain ⟨hd, hmore⟩ := List.forall_mem_cons.mp hdigits
    simp [Fraction.chars, chain, seq, char, one, run1, run, nothing, hd,
      List.takeWhile_eq_self_iff.mpr hmore, List.dropWhile_eq_nil_iff.mpr hmore]

theorem reads_calendarDate : Reads calendarDate DateFields.chars where
  sound {cs a rest} h := by
    obtain ⟨_, _, _, hyear, h1, rfl⟩ := seq_eq_some.mp h
    obtain ⟨_, _, _, hdash, h2, rfl⟩ := seq_eq_some.mp h1
    obtain ⟨_, _, _, hmonth, h3, rfl⟩ := seq_eq_some.mp h2
    obtain ⟨_, _, _, hdash', h4, rfl⟩ := seq_eq_some.mp h3
    obtain ⟨_, _, _, hday, hnothing, rfl⟩ := seq_eq_some.mp h4
    cases hnothing
    obtain ⟨year, rfl⟩ := exists_padded_of_digits hyear
    obtain ⟨month, rfl⟩ := exists_padded_of_digits hmonth
    obtain ⟨day, rfl⟩ := exists_padded_of_digits hday
    obtain ⟨rfl, -⟩ := char_eq_some.mp hdash
    obtain ⟨rfl, -⟩ := char_eq_some.mp hdash'
    exact ⟨⟨year, month, day⟩, by simp [DateFields.chars]⟩
  complete date := by
    have hday := digits_padded 2 date.day []
    rw [List.append_nil] at hday
    simp [DateFields.chars, calendarDate, chain, seq, nothing, digits_padded, char, one, hday]

theorem reads_seconds : Reads seconds SecondFields.chars where
  sound {cs a rest} h := by
    obtain ⟨_, _, _, hcolon, h1, rfl⟩ := seq_eq_some.mp h
    obtain ⟨_, _, _, hvalue, h2, rfl⟩ := seq_eq_some.mp h1
    obtain ⟨_, _, _, hfraction, hnothing, rfl⟩ := seq_eq_some.mp h2
    cases hnothing
    obtain ⟨rfl, -⟩ := char_eq_some.mp hcolon
    obtain ⟨value, rfl⟩ := exists_padded_of_digits hvalue
    obtain ⟨fraction, rfl⟩ := (reads_fraction.optional rfl).sound hfraction
    exact ⟨⟨value, fraction⟩, by simp [SecondFields.chars, SecondFields.fractionChars]⟩
  complete s := by
    refine seq_eq_some.mpr ⟨[':'], _, _, char_eq_some.mpr ⟨rfl, rfl⟩, ?_, rfl⟩
    refine seq_eq_some.mpr ⟨_, _, _, digits_padded 2 s.value _, ?_, rfl⟩
    exact seq_eq_some.mpr ⟨_, [], [], (reads_fraction.optional rfl).complete s.fraction, rfl,
      (List.append_nil _).symm⟩

theorem reads_clock : Reads clock ClockFields.chars where
  sound {cs a rest} h := by
    obtain ⟨_, _, _, hhour, h1, rfl⟩ := seq_eq_some.mp h
    obtain ⟨_, _, _, hcolon, h2, rfl⟩ := seq_eq_some.mp h1
    obtain ⟨_, _, _, hminute, h3, rfl⟩ := seq_eq_some.mp h2
    obtain ⟨_, _, _, hseconds, hnothing, rfl⟩ := seq_eq_some.mp h3
    cases hnothing
    obtain ⟨hour, rfl⟩ := exists_padded_of_digits hhour
    obtain ⟨rfl, -⟩ := char_eq_some.mp hcolon
    obtain ⟨minute, rfl⟩ := exists_padded_of_digits hminute
    obtain ⟨seconds, rfl⟩ := (reads_seconds.optional rfl).sound hseconds
    exact ⟨⟨hour, minute, seconds⟩, by simp [ClockFields.chars]⟩
  complete c := by
    refine seq_eq_some.mpr ⟨_, _, _, digits_padded 2 c.hour _, ?_, rfl⟩
    refine seq_eq_some.mpr ⟨[':'], _, _, char_eq_some.mpr ⟨rfl, rfl⟩, ?_, rfl⟩
    refine seq_eq_some.mpr ⟨_, _, _, digits_padded 2 c.minute _, ?_, rfl⟩
    exact seq_eq_some.mpr ⟨_, [], [], (reads_seconds.optional rfl).complete c.seconds, rfl,
      (List.append_nil _).symm⟩

theorem exists_of_either {first second : Char} {cs a rest : List Char}
    (h : one (fun c => c == first || c == second) cs = some (a, rest)) :
    ∃ other : Bool, a = [if other then second else first] := by
  cases cs with
  | nil => cases h
  | cons c cs =>
      rw [one] at h
      split at h
      · next hc =>
        cases h
        simp only [Bool.or_eq_true, beq_iff_eq] at hc
        rcases hc with rfl | rfl
        · exact ⟨false, rfl⟩
        · exact ⟨true, rfl⟩
      · cases h

theorem reads_zone : Reads zone ZoneFields.chars where
  sound {cs a rest} h := by
    rw [zone_eq, Option.or_eq_some_iff] at h
    rcases h with h | ⟨-, h⟩
    · obtain ⟨rfl, -⟩ := char_eq_some.mp h
      exact ⟨.utc, rfl⟩
    · obtain ⟨_, _, _, hsign, h1, rfl⟩ := seq_eq_some.mp h
      obtain ⟨_, _, _, hhours, h2, rfl⟩ := seq_eq_some.mp h1
      obtain ⟨_, _, _, hcolon, h3, rfl⟩ := seq_eq_some.mp h2
      obtain ⟨_, _, _, hminutes, hnothing, rfl⟩ := seq_eq_some.mp h3
      cases hnothing
      obtain ⟨negative, rfl⟩ := exists_of_either hsign
      obtain ⟨hours, rfl⟩ := exists_padded_of_digits hhours
      obtain ⟨minutes, rfl⟩ := exists_padded_of_digits hminutes
      simp only [optional, Option.or_eq_some_iff, Option.some.injEq, Prod.mk.injEq] at hcolon
      rcases hcolon with hcolon | ⟨-, rfl, -⟩
      · obtain ⟨rfl, -⟩ := char_eq_some.mp hcolon
        exact ⟨.offset negative true hours minutes, by simp [ZoneFields.chars]⟩
      · exact ⟨.offset negative false hours minutes, by simp [ZoneFields.chars]⟩
  complete
    | .utc => rfl
    | .offset negative colon hours minutes => by
      have hcolon : optional (char ':') ((if colon then [':'] else []) ++ paddedDigits 2 minutes) =
          some (if colon then [':'] else [], paddedDigits 2 minutes) := by
        cases colon with
        | true => rfl
        | false =>
            -- a digit is no colon
            have hnone : char ':' (paddedDigits 2 minutes) = none :=
              needs_char ':' _ fun c hc =>
                beq_of_isDigit rfl c (isDigit_paddedDigits 2 minutes c (List.mem_of_mem_head? hc))
            simp [optional, hnone]
      have hminutes := digits_padded 2 minutes []
      rw [List.append_nil] at hminutes
      have hoffset : signedOffset (ZoneFields.chars (.offset negative colon hours minutes)) =
          some (ZoneFields.chars (.offset negative colon hours minutes), []) := by
        have hsign (tail : List Char) :
            one (fun c => c == '+' || c == '-') ((if negative then '-' else '+') :: tail) =
              some ([if negative then '-' else '+'], tail) := by
          cases negative <;> rfl
        refine seq_eq_some.mpr ⟨_, _, _, hsign _, ?_, rfl⟩
        refine seq_eq_some.mpr ⟨_, _, _, digits_padded 2 hours _, ?_, rfl⟩
        refine seq_eq_some.mpr ⟨_, _, _, hcolon, ?_, rfl⟩
        exact seq_eq_some.mpr ⟨_, [], [], hminutes, rfl, (List.append_nil _).symm⟩
      have hzulu : char 'Z' (ZoneFields.chars (.offset negative colon hours minutes)) = none := by
        cases negative <;> rfl
      rw [zone_eq, hzulu, hoffset]
      rfl

end Reader

/-! ### Dates with a time of day -/

namespace DateTimeFields
variable (fields : DateTimeFields)

theorem dateChars_eq_cons : ∃ d rest, d.isDigit = true ∧ fields.dateChars = d :: rest := by
  obtain ⟨d, more, hd, hcons⟩ := paddedDigits_eq_cons 3 fields.date.year
  exact ⟨d, _, hd, by rw [dateChars, DateFields.chars, hcons]; rfl⟩

theorem head_dateChars : ∀ c ∈ fields.dateChars.head?, c.isDigit = true := by
  obtain ⟨d, rest, hd, hcons⟩ := fields.dateChars_eq_cons
  rw [hcons]
  intro c hc
  cases hc
  exact hd

theorem head_zoneChars :
    ∀ c ∈ fields.zoneChars.head?, (c.isDigit || c == '.' || c == ':') = false := by
  rw [zoneChars]
  cases fields.zone with
  | none => simp
  | some zone =>
      exact Reader.avoids_zone _ _ _ (Reader.reads_zone.complete zone)

theorem reads_dateTime : Reader.Reads Reader.dateTime chars where
  sound {cs a rest} h := by
    obtain ⟨_, _, _, hsign, h1, rfl⟩ := Reader.seq_eq_some.mp h
    obtain ⟨_, _, _, hdate, h2, rfl⟩ := Reader.seq_eq_some.mp h1
    obtain ⟨_, _, _, hseparator, h3, rfl⟩ := Reader.seq_eq_some.mp h2
    obtain ⟨_, _, _, hclock, h4, rfl⟩ := Reader.seq_eq_some.mp h3
    obtain ⟨_, _, _, hzone, hnothing, rfl⟩ := Reader.seq_eq_some.mp h4
    cases hnothing
    obtain ⟨comparison, rfl⟩ := Reader.reads_comparison.sound hsign
    obtain ⟨date, rfl⟩ := Reader.reads_calendarDate.sound hdate
    obtain ⟨spaced, rfl⟩ := Reader.exists_of_either hseparator
    obtain ⟨clock, rfl⟩ := Reader.reads_clock.sound hclock
    obtain ⟨zone, rfl⟩ := (Reader.reads_zone.optional rfl).sound hzone
    exact ⟨⟨comparison, date, spaced, clock, zone⟩,
      by simp [chars, operator, dateChars, separator, zoneChars]⟩
  complete fields := by
    have hsign : Reader.comparison fields.chars = some (fields.operator, fields.dateChars) :=
      Reader.reads_comparison.again Reader.firm_comparison fields.comparison fun c hc =>
        Reader.comparisonChar_of_isDigit c (fields.head_dateChars c hc)
    have hdate (tail : List Char) :
        Reader.calendarDate (fields.date.chars ++ tail) = some (fields.date.chars, tail) :=
      Reader.reads_calendarDate.again Reader.firm_calendarDate fields.date fun _ _ => rfl
    have hseparator (tail : List Char) :
        Reader.one (fun c => c == 'T' || c == ' ') (fields.separator :: tail) =
          some ([fields.separator], tail) := by
      rw [separator]
      cases fields.spaced <;> rfl
    have hclock : Reader.clock (fields.clock.chars ++ fields.zoneChars) =
        some (fields.clock.chars, fields.zoneChars) :=
      Reader.reads_clock.again Reader.firm_clock fields.clock fields.head_zoneChars
    refine Reader.seq_eq_some.mpr ⟨_, _, _, hsign, ?_, rfl⟩
    refine Reader.seq_eq_some.mpr ⟨_, _, _, hdate _, ?_, rfl⟩
    refine Reader.seq_eq_some.mpr ⟨[fields.separator], _, _, hseparator _, ?_, rfl⟩
    refine Reader.seq_eq_some.mpr ⟨_, _, _, hclock, ?_, rfl⟩
    exact Reader.seq_eq_some.mpr ⟨_, [], [], (Reader.reads_zone.optional rfl).complete fields.zone,
      rfl, (List.append_nil _).symm⟩

/-- The literals that are read as a date with a time of day are the texts of fields. -/
theorem acceptsAll_iff {text : String} :
    Reader.acceptsAll Reader.dateTime text.toList = true ↔
      ∃ fields : DateTimeFields, fields.text = text := by
  rw [reads_dateTime.acceptsAll_iff Token.exact_dateTime]
  constructor
  · rintro ⟨fields, h⟩
    exact ⟨fields, by rw [DateTimeFields.text, h, String.ofList_toList]⟩
  · rintro ⟨fields, rfl⟩
    exact ⟨fields, by rw [DateTimeFields.text, String.toList_ofList]⟩

theorem trimStart_chars : trimStart fields.chars = fields.chars := by
  have hhead : ∀ c ∈ fields.chars.head?, isBlank c = false := by
    intro c hc
    rw [chars, operator] at hc
    cases hsign : fields.comparison with
    | none =>
        rw [hsign] at hc
        have hword := Token.isWordChar_of_isDigit (fields.head_dateChars c hc)
        simp only [isWordChar, Bool.not_eq_true', Bool.or_eq_false_iff] at hword
        simp only [hword]
    | some comparison =>
        rw [hsign] at hc
        cases comparison <;> cases hc <;> rfl
  cases hchars : fields.chars with
  | nil => rfl
  | cons c cs =>
      rw [trimStart_cons, hhead c (by rw [hchars]; rfl)]
      rfl

/-- The fields are one token, with nothing after them. -/
theorem scan_chars : Token.scan fields.chars = .ok [.literal .dateTime fields.text] := by
  have hform : LiteralForm.dateTime.reader fields.chars = some (fields.chars, []) :=
    reads_dateTime.complete fields
  have hread : Token.read? (fields.chars ++ []) = some (.literal .dateTime fields.text, []) :=
    Token.read?_literal hform (by simp)
  rw [List.append_nil] at hread
  rw [Token.scan_of_read? (fields.trimStart_chars.symm ▸ hread), Token.scan_nil]
  rfl

/-- The name of a field, a colon and the fields are three tokens. -/
theorem tokenize_eq {name : String} (hname : IsFieldName name) :
    tokenize (name ++ ":" ++ fields.text) =
      .ok [.word name, .colon, .literal .dateTime fields.text] := by
  have hnone : ∀ c ∈ ([] : List Char), isBlank c = true := List.forall_mem_nil _
  have hscan := hname.scan hnone hnone fields.chars
  have htext : (name ++ ":" ++ fields.text).toList = name.toList ++ ':' :: fields.chars := by
    simp [text]
  rw [List.nil_append, List.nil_append, fields.scan_chars] at hscan
  rw [tokenize, htext, hscan]
  rfl

end DateTimeFields

end QueryFilter
