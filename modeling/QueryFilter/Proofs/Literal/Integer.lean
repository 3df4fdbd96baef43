import Mathlib
import QueryFilter.Filter.Compile
import QueryFilter.Proofs.Literal.Detection
import QueryFilter.Proofs.Moment.DateText
import QueryFilter.Proofs.Number.Nearest

/-! # Integer literals

An integer is written as digits, possibly after a sign (`IntegerLiteral`).  Up to `2 ^ 53 - 1` it is
stored as this very integer, above that as the number nearest to it, and if that is infinite, the
literal is a string (`resolve_integer`). -/

namespace QueryFilter

/-- What can stand in front of the digits of an integer. -/
inductive Sign where
  | none
  | plus
  | minus
deriving DecidableEq

def Sign.chars : Sign → List Char
  | .none => []
  | .plus => ['+']
  | .minus => ['-']

/-- An integer as it is written. -/
structure IntegerLiteral where
  sign : Sign
  digits : List Char
  digits_ne_nil : digits ≠ []
  isDigit : ∀ c ∈ digits, c.isDigit = true

namespace IntegerLiteral
variable (literal : IntegerLiteral)

def text : String := String.ofList (literal.sign.chars ++ literal.digits)

/-- The integer that is written. -/
def value : Int :=
  if literal.sign = .minus then -(digitsValue literal.digits : Int) else digitsValue literal.digits

/-- The decimal that is read. -/
def decimal : Decimal := ⟨decide (literal.sign = .minus), digitsValue literal.digits, 0⟩

/-! ### The decimal -/

theorem splitSign_chars :
    splitSign (literal.sign.chars ++ literal.digits) =
      (decide (literal.sign = .minus), literal.digits) := by
  cases literal.sign with
  | none =>
      obtain ⟨d, more, hdigits⟩ := List.exists_cons_of_ne_nil literal.digits_ne_nil
      have hd : d.isDigit = true := literal.isDigit d (by rw [hdigits]; simp)
      rw [hdigits]
      exact splitSign_of_isDigit hd more
  | plus => rfl
  | minus => rfl

theorem ofText?_chars :
    Decimal.ofText? (literal.sign.chars ++ literal.digits) = some literal.decimal := by
  have hwhole : literal.digits.takeWhile Char.isDigit = literal.digits :=
    List.takeWhile_eq_self_iff.mpr literal.isDigit
  have hrest : literal.digits.dropWhile Char.isDigit = [] :=
    List.dropWhile_eq_nil_iff.mpr literal.isDigit
  have hsome : literal.digits.isEmpty = false := List.isEmpty_eq_false_iff.mpr literal.digits_ne_nil
  rw [Decimal.ofText?, literal.splitSign_chars]
  dsimp only
  rw [hwhole, hrest]
  simp [splitFraction, readExponent?, hsome, decimal]

theorem ofText?_text : Binary64.ofText? literal.text = literal.decimal.nearest? := by
  rw [Binary64.ofText?, text, String.toList_ofList, literal.ofText?_chars, Option.bind_some]

theorem natAbs_value : literal.value.natAbs = digitsValue literal.digits := by
  rw [value]
  split
  · rw [Int.natAbs_neg, Int.natAbs_natCast]
  · rw [Int.natAbs_natCast]

theorem magnitude_decimal : literal.decimal.magnitude = |(literal.value : ℚ)| * unitsPerOne := by
  rw [Decimal.magnitude, decimal, zpow_zero, mul_one, ← Int.cast_abs, Int.abs_eq_natAbs,
    Int.cast_natCast, literal.natAbs_value]

theorem negative_decimal (h : literal.value ≠ 0) :
    literal.decimal.negative = decide ((literal.value : ℚ) < 0) := by
  have hvalue := literal.natAbs_value
  rw [decimal, decide_eq_decide, Int.cast_lt_zero]
  rw [value] at h hvalue ⊢
  split
  · next hminus => 
    rw [if_pos hminus] at h
    simp only [hminus, true_iff]
    omega
  · next hminus =>
    simp only [hminus, false_iff]
    omega

/-! ### The kind -/

theorem text_chars : ∀ c ∈ literal.text.toList, c.isDigit = true ∨ c = '+' ∨ c = '-' := by
  intro c hc
  rw [text, String.toList_ofList, List.mem_append] at hc
  rcases hc with hc | hc
  · cases hsign : literal.sign with
    | none => simp [hsign, Sign.chars] at hc
    | plus => simp [hsign, Sign.chars] at hc; simp [hc]
    | minus => simp [hsign, Sign.chars] at hc; simp [hc]
  · exact .inl (literal.isDigit c hc)

/-- An integer is shown to the detector of numbers, and is a string if that does not accept it. -/
theorem resolve_eq :
    resolve literal.text = .ok (.scalar
      (match literal.decimal.nearest? with
        | some x => .number x
        | none => .string literal.text)) := by
  have hmarks : ∀ c ∈ ['[', '>', '<', '/', '*'], c ∉ literal.text.toList := by
    intro c hc hmem
    have hchar := literal.text_chars c hmem
    simp only [List.mem_cons, List.not_mem_nil, or_false] at hc
    rcases hc with rfl | rfl | rfl | rfl | rfl <;> simp at hchar
  have hdate : Scalar.ofDate? literal.text = none := by
    rw [Scalar.ofDate?, Option.map_eq_none_iff]
    cases hread : Moment.ofText? literal.text with
    | none => rfl
    | some m =>
        have hnone := (Moment.isDateText_of_ofText? hread).decimal_eq_none
        rw [text, String.toList_ofList, literal.ofText?_chars] at hnone
        cases hnone
  have hnumber : Scalar.ofNumber? literal.text = literal.decimal.nearest?.map .number := by
    rw [Scalar.ofNumber?, literal.ofText?_text]
  have hboolean : Detector.boolean literal.text = .ok none := by
    have hword (word : String) (hletter : 'e' ∈ word.toList) : literal.text ≠ word := by
      rintro rfl
      have hchar := literal.text_chars 'e' hletter
      simp at hchar
    rw [Detector.boolean, if_neg (hword "true" (by simp)), if_neg (hword "false" (by simp))]
  rw [resolve_of_unmarked hmarks]
  simp only [detectFirst, Detector.date, Detector.number, hdate, hnumber, hboolean]
  cases literal.decimal.nearest? with
  | none => rfl
  | some x => rfl

/-! ### What is stored -/

section stored
variable {x : Binary64} {literal}

theorem toDatum_of_nearest? (h : literal.decimal.nearest? = some x) :
    (resolve literal.text).map Resolved.toDatum = .ok (Datum.ofNumber x) := by
  rw [resolve_eq, h]
  rfl

theorem one_le_abs_value (h : literal.value ≠ 0) : 1 ≤ |(literal.value : ℚ)| := by
  rw [← Int.cast_abs]
  exact_mod_cast Int.one_le_abs h

/-- The decimal of an integer is rounded to the nearest number, if that is finite. -/
theorem nearest?_of_isNearest (h : literal.value ≠ 0) (hx : x.IsNearest literal.value)
    (hfinite : x.isFinite = true) : literal.decimal.nearest? = some x :=
  hx.nearest?_eq (hx.rank_pos (one_le_abs_value h)) hfinite literal.magnitude_decimal
    (literal.negative_decimal h)

/-- An integer below `2 ^ 53` is read as a number of this value. -/
theorem exists_nearest?_of_lt (h : literal.value.natAbs < 2 ^ 53) :
    ∃ x : Binary64, literal.decimal.nearest? = some x ∧ x.isFinite = true ∧
      x.value = literal.value := by
  by_cases hzero : literal.value = 0
  · have hmagnitude : literal.decimal.magnitude = 0 := by
      rw [magnitude_decimal, hzero, Int.cast_zero, abs_zero, zero_mul]
    refine ⟨_, nearest?_of_magnitude_eq_zero hmagnitude,
      decide_eq_true (by decide : 0 < Binary64.infinityRank), ?_⟩
    rw [hzero, Int.cast_zero, Binary64.value]
    simp [Binary64.units, unitsOf]
  · obtain ⟨rank, -, hfinite, hunits⟩ := exists_unitsOf_eq_mul (Int.natAbs_pos.mpr hzero) h
    let x : Binary64 := ⟨decide (literal.value < 0), rank, hfinite.trans (by decide)⟩
    have hx : x.isFinite = true := decide_eq_true hfinite
    have hvalue : x.value = literal.value := by
      rw [Binary64.value_of_units_eq (x := x) hunits]
      simp only [x, decide_eq_true_eq]
      split <;> congr 1 <;> omega
    refine ⟨x, nearest?_of_isNearest hzero ?_ hx, hx, hvalue⟩
    rw [← hvalue]
    exact x.isNearest_value hx

end stored

end IntegerLiteral

/-- **Integers are stored exactly** up to `2 ^ 53 - 1`.  A greater one is stored as the number nearest
to it, and it is a string if that is infinite.  The finite numbers that are stored as integers are
those with an integer value of at most `2 ^ 53 - 1`, which is what is stored. -/
theorem resolve_integer (literal : IntegerLiteral) :
    (|literal.value| ≤ 2 ^ 53 - 1 → ∃ k : Int64, k.toInt = literal.value ∧
      (resolve literal.text).map Resolved.toDatum = .ok (.int k)) ∧
    (∃ x : Binary64, x.IsNearest literal.value) ∧
    (∀ x : Binary64, x.IsNearest literal.value →
      (2 ^ 53 ≤ |literal.value| → x.isFinite = true →
        (resolve literal.text).map Resolved.toDatum = .ok (.double x)) ∧
      (x.isFinite = false → resolve literal.text = .ok (.scalar (.string literal.text)))) ∧
    ∀ v : Binary64, v.isFinite = true →
      ((∃ k, Datum.ofNumber v = .int k) ↔ ∃ n : Int, v.value = n ∧ |n| ≤ 2 ^ 53 - 1) ∧
      ∀ k, Datum.ofNumber v = .int k → v.value = k.toInt := by
  refine ⟨fun hsmall => ?_, Binary64.exists_isNearest _, fun x hx => ⟨fun hlarge hfinite => ?_,
    fun hinfinite => ?_⟩, fun v hv => ⟨⟨?_, ?_⟩, fun k hk => ?_⟩⟩
  · have hlt : literal.value.natAbs < 2 ^ 53 := by
      rw [Int.abs_eq_natAbs] at hsmall
      omega
    obtain ⟨x, hnearest, hfinite, hvalue⟩ := literal.exists_nearest?_of_lt hlt
    have hexact := toInt_ofInt_of_abs_le hsmall
    refine ⟨Int64.ofInt literal.value, hexact, ?_⟩
    rw [IntegerLiteral.toDatum_of_nearest? hnearest,
      Datum.ofNumber_eq_int_iff.mpr ⟨hfinite, by rw [hexact, hvalue], by rwa [hexact]⟩]
  · have hnearest := IntegerLiteral.nearest?_of_isNearest (by rintro hzero; simp [hzero] at hlarge)
      hx hfinite
    rw [IntegerLiteral.toDatum_of_nearest? hnearest, Datum.ofNumber_eq_double]
    intro k hk
    obtain ⟨-, hvalue, hsafe⟩ := Datum.ofNumber_eq_int_iff.mp hk
    have htwo : 2 ^ 53 ≤ |x.value| := hx.two_pow_le (by exact_mod_cast hlarge)
    rw [hvalue] at htwo
    have htwo : 2 ^ 53 ≤ |k.toInt| := by exact_mod_cast htwo
    omega
  · rw [literal.resolve_eq, hx.nearest?_eq_none hinfinite literal.magnitude_decimal]
  · rintro ⟨k, hk⟩
    obtain ⟨-, hvalue, hsafe⟩ := Datum.ofNumber_eq_int_iff.mp hk
    exact ⟨k.toInt, hvalue, hsafe⟩
  · rintro ⟨n, hvalue, hsafe⟩
    have hexact := toInt_ofInt_of_abs_le hsafe
    exact ⟨Int64.ofInt n, Datum.ofNumber_eq_int_iff.mpr ⟨hv, by rw [hexact, hvalue], by rwa [hexact]⟩⟩
  · exact (Datum.ofNumber_eq_int_iff.mp hk).2.1

/-- The greatest integer that is stored as one, with a sign and zeros in front; the first one that is
no number, whose neighbours are equally near; and one that is out of range. -/
theorem resolve_integer_limits :
    ∃ safe tied huge : IntegerLiteral,
      safe.text = "+009007199254740991" ∧ |safe.value| ≤ 2 ^ 53 - 1 ∧
      (resolve "+009007199254740991").map Resolved.toDatum = .ok (.int 9007199254740991) ∧
      tied.text = "-9007199254740993" ∧ 2 ^ 53 ≤ |tied.value| ∧
      (∃ x : Binary64, x.value = -9007199254740992 ∧ x.IsNearest tied.value ∧
        (resolve "-9007199254740993").map Resolved.toDatum = .ok (.double x)) ∧
      huge.digits = '2' :: List.replicate 308 '0' ∧
      resolve huge.text = .ok (.scalar (.string huge.text)) := by
  let safe : IntegerLiteral :=
    ⟨.plus, "009007199254740991".toList, by simp, List.all_eq_true.mp (by cbv)⟩
  let tied : IntegerLiteral :=
    ⟨.minus, "9007199254740993".toList, by simp, List.all_eq_true.mp (by cbv)⟩
  let huge : IntegerLiteral :=
    ⟨.none, '2' :: List.replicate 308 '0', List.cons_ne_nil _ _,
      List.forall_mem_cons.mpr ⟨rfl, fun _ hc => List.eq_of_mem_replicate hc ▸ rfl⟩⟩
  have hsafe : safe.value = 9007199254740991 := by decide
  have htied : tied.value = -9007199254740993 := by decide
  have hhuge : huge.digits = '2' :: List.replicate 308 '0' := rfl
  -- The neighbourhoods are those of the decimals, whose tests can be run.
  have hrounds : Rounds tied.decimal.magnitude (1075 * 2 ^ 52 + 2 ^ 52) :=
    roundsTo_iff.mp (by decide +kernel)
  have hleaves : Leaves huge.decimal.magnitude (Binary64.infinityRank - 1) :=
    leaves_iff.mp (by decide +kernel)
  clear_value huge
  rw [tied.magnitude_decimal] at hrounds
  rw [huge.magnitude_decimal] at hleaves
  have hfinite : 1075 * 2 ^ 52 + 2 ^ 52 ≤ Binary64.infinityRank := by decide
  have hnearest := Binary64.isNearest_onSide hfinite hrounds.2 fun _ => hrounds.1
  have hunits : (Binary64.onSide tied.value _ hfinite).units = 2 ^ 53 * unitsPerOne := unitsOf_two_pow
  have hinfinite := Binary64.isNearest_onSide (Nat.le_refl _) (.inr hleaves)
    fun hlt => absurd hlt (Nat.lt_irrefl _)
  obtain ⟨hexact, -⟩ := resolve_integer safe
  obtain ⟨-, -, hdouble, -⟩ := resolve_integer tied
  obtain ⟨-, -, hstring, -⟩ := resolve_integer huge
  obtain ⟨k, hk, hint⟩ := hexact (by rw [hsafe]; decide)
  obtain rfl : k = 9007199254740991 := Int64.toInt_inj.mp (hk.trans hsafe)
  refine ⟨safe, tied, huge, rfl, by rw [hsafe]; decide, hint, rfl, by rw [htied]; decide,
    ⟨_, ?_, hnearest, (hdouble _ hnearest).1 (by rw [htied]; decide) ?_⟩, hhuge,
    (hstring _ hinfinite).2 (by rw [Binary64.isFinite_onSide, decide_eq_false (lt_irrefl _)])⟩
  · rw [Binary64.value_of_units_eq hunits, Binary64.onSide, htied]
    norm_num
  · rw [Binary64.isFinite_onSide]
    decide

end QueryFilter
