import Mathlib
import QueryFilter.Number.Style
import QueryFilter.Proofs.Number.Rounding

/-! # Numbers written in a query

A finite number is written as a `Numeral`: an optional minus, digits, and possibly a point and more
digits (`Binary64.exists_numeral`).  A numeral is read as the decimal that it spells, so the text of
a number is read as the number again (`Binary64.ofText?_text`). -/

namespace QueryFilter

/-! ### Values of digits -/

theorem digitsValue_append (a b : List Char) :
    digitsValue (a ++ b) = 10 ^ b.length * digitsValue a + digitsValue b := by
  have hfrom (start : Nat) (cs : List Char) : digitsValueFrom start cs = Nat.ofDigitChars 10 cs start :=
    rfl
  rw [digitsValue, digitsValue, digitsValue, hfrom, hfrom, hfrom, Nat.ofDigitChars_append,
    Nat.ofDigitChars_eq_ofDigitChars_zero]

theorem digitsValue_zeros (n : Nat) : digitsValue (List.replicate n '0') = 0 := by
  have hzero : Nat.ofDigitChars 10 (List.replicate n '0') 0 = 10 ^ n * 0 :=
    Nat.ofDigitChars_replicate_zero
  exact hzero

theorem digitsValue_append_zeros (digits : List Char) (n : Nat) :
    digitsValue (digits ++ List.replicate n '0') = 10 ^ n * digitsValue digits := by
  rw [digitsValue_append, digitsValue_zeros, List.length_replicate, Nat.add_zero]

theorem digitsValue_zeros_append (n : Nat) (digits : List Char) :
    digitsValue (List.replicate n '0' ++ digits) = digitsValue digits := by
  rw [digitsValue_append, digitsValue_zeros, Nat.mul_zero, Nat.zero_add]

theorem isDigit_zeros (n : Nat) : ∀ c ∈ List.replicate n '0', c.isDigit = true := by
  intro c hc
  rw [List.eq_of_mem_replicate hc]
  rfl

theorem digitsValue_toDigits (n : Nat) : digitsValue (Nat.toDigits 10 n) = n :=
  Nat.ofDigitChars_ten_toDigits

theorem splitSign_of_isDigit {d : Char} (hd : d.isDigit = true) (rest : List Char) :
    splitSign (d :: rest) = (false, d :: rest) := by
  unfold splitSign
  split
  · next heq =>
    cases heq
    cases hd
  · next heq =>
    cases heq
    cases hd
  · rfl

/-! ### Numerals -/

/-- A number in digits. -/
structure Numeral where
  negative : Bool
  /-- The digits before the point. -/
  whole : List Char
  /-- The digits after the point. -/
  fraction : List Char
  whole_ne_nil : whole ≠ []
  isDigit : ∀ c ∈ whole ++ fraction, c.isDigit = true

namespace Numeral

/-- The numeral without its sign.  There is a point only if there are digits after it. -/
def unsigned (n : Numeral) : List Char :=
  n.whole ++ if n.fraction.isEmpty then [] else '.' :: n.fraction

/-- The numeral as it is written. -/
def chars (n : Numeral) : List Char := if n.negative then '-' :: n.unsigned else n.unsigned

/-- The decimal that the numeral spells. -/
def decimal (n : Numeral) : Decimal :=
  ⟨n.negative, digitsValue (n.whole ++ n.fraction), -(n.fraction.length : Int)⟩

variable (n : Numeral)

theorem isDigit_whole : ∀ c ∈ n.whole, c.isDigit = true :=
  fun c hc => n.isDigit c (List.mem_append_left _ hc)

theorem isDigit_fraction : ∀ c ∈ n.fraction, c.isDigit = true :=
  fun c hc => n.isDigit c (List.mem_append_right _ hc)

/-- The first digit, and what follows it. -/
theorem exists_digit : ∃ d rest, d.isDigit = true ∧ n.unsigned = d :: rest := by
  obtain ⟨d, more, hwhole⟩ := List.exists_cons_of_ne_nil n.whole_ne_nil
  have hd : d.isDigit = true := n.isDigit_whole d (by rw [hwhole]; simp)
  exact ⟨d, more ++ if n.fraction.isEmpty then [] else '.' :: n.fraction, hd, by
    rw [unsigned, hwhole]; rfl⟩

theorem splitSign_chars : splitSign n.chars = (n.negative, n.unsigned) := by
  rw [chars]
  cases hnegative : n.negative with
  | true => rfl
  | false =>
      obtain ⟨d, rest, hd, hunsigned⟩ := n.exists_digit
      rw [hunsigned]
      exact splitSign_of_isDigit hd rest

theorem takeWhile_unsigned : n.unsigned.takeWhile Char.isDigit = n.whole := by
  rw [unsigned, List.takeWhile_append_of_pos n.isDigit_whole]
  cases n.fraction with
  | nil => simp
  | cons c fraction => simp

theorem dropWhile_unsigned :
    n.unsigned.dropWhile Char.isDigit = if n.fraction.isEmpty then [] else '.' :: n.fraction := by
  rw [unsigned, List.dropWhile_append_of_pos n.isDigit_whole]
  cases n.fraction with
  | nil => simp
  | cons c fraction => simp

theorem splitFraction_point :
    splitFraction (if n.fraction.isEmpty then [] else '.' :: n.fraction) = (n.fraction, []) := by
  have hdigits := n.isDigit_fraction
  cases hfraction : n.fraction with
  | nil => rfl
  | cons c fraction =>
      rw [hfraction] at hdigits
      have htake := List.takeWhile_eq_self_iff.mpr hdigits
      have hdrop := List.dropWhile_eq_nil_iff.mpr hdigits
      exact Prod.ext htake hdrop

/-- A numeral is read as the decimal that it spells. -/
theorem ofText?_chars : Decimal.ofText? n.chars = some n.decimal := by
  have hwhole : n.whole.isEmpty = false := List.isEmpty_eq_false_iff.mpr n.whole_ne_nil
  rw [Decimal.ofText?, n.splitSign_chars]
  dsimp only
  rw [n.takeWhile_unsigned, n.dropWhile_unsigned, n.splitFraction_point]
  simp [hwhole, readExponent?, decimal]

/-! ### The characters of a numeral -/

theorem mem_unsigned {c : Char} (hc : c ∈ n.unsigned) : c.isDigit = true ∨ c = '.' := by
  rw [unsigned] at hc
  rcases List.mem_append.mp hc with hc | hc
  · exact .inl (n.isDigit_whole c hc)
  · split at hc
    · cases hc
    · rcases List.mem_cons.mp hc with hc | hc
      · exact .inr hc
      · exact .inl (n.isDigit_fraction c hc)

/-- A numeral starts with a minus or a digit, and after that there are digits and a point only. -/
theorem chars_eq_cons : ∃ c rest, n.chars = c :: rest ∧ (c.isDigit = true ∨ c = '-') ∧
    ∀ d ∈ rest, d.isDigit = true ∨ d = '.' := by
  have hmem : ∀ d ∈ n.unsigned, d.isDigit = true ∨ d = '.' := fun d hd => n.mem_unsigned hd
  rw [chars]
  cases n.negative with
  | true => exact ⟨'-', n.unsigned, rfl, .inr rfl, hmem⟩
  | false =>
      obtain ⟨d, rest, hd, hunsigned⟩ := n.exists_digit
      rw [hunsigned] at hmem
      exact ⟨d, rest, hunsigned, .inl hd, fun e he => hmem e (List.mem_cons_of_mem d he)⟩

/-! ### The layout of digits -/

/-- Zeros behind the digits are worth as much as an exponent. -/
theorem magnitude_shift (negative : Bool) (digits n : Nat) :
    Decimal.magnitude ⟨negative, 10 ^ n * digits, 0⟩ = Decimal.magnitude ⟨negative, digits, n⟩ := by
  simp only [Decimal.magnitude, Nat.cast_mul, Nat.cast_pow, Nat.cast_ofNat, zpow_zero, zpow_natCast,
    mul_one]
  ring

/-- Digits laid out around the point are a numeral of the same magnitude. -/
theorem exists_plain (negative : Bool) {digits : List Char} (hne : digits ≠ [])
    (hdigits : ∀ c ∈ digits, c.isDigit = true) (exponent : Int) :
    ∃ n : Numeral, n.negative = negative ∧ n.unsigned = NumberStyle.query.plain digits exponent ∧
      n.decimal.magnitude = Decimal.magnitude ⟨negative, digitsValue digits, exponent⟩ := by
  unfold NumberStyle.plain
  split
  · next hexponent =>
    -- zeros after the digits
    have hpadded : ∀ c ∈ digits ++ List.replicate exponent.toNat '0' ++ [], c.isDigit = true := by
      rw [List.append_nil]
      exact List.forall_mem_append.mpr ⟨hdigits, isDigit_zeros _⟩
    refine ⟨⟨negative, digits ++ List.replicate exponent.toNat '0', [], by simp [hne], hpadded⟩,
      rfl, by simp [unsigned, NumberStyle.query], ?_⟩
    have hshift := magnitude_shift negative (digitsValue digits) exponent.toNat
    rw [← digitsValue_append_zeros, Int.toNat_of_nonneg hexponent] at hshift
    rw [← hshift, decimal, List.append_nil]
    rfl
  · next hexponent =>
    dsimp only
    split
    · next hplaces =>
      -- the point among the digits
      have hfraction : (digits.drop (digits.length - (-exponent).toNat)).length =
          (-exponent).toNat := by
        rw [List.length_drop]
        omega
      refine ⟨⟨negative, digits.take (digits.length - (-exponent).toNat),
        digits.drop (digits.length - (-exponent).toNat), ?_, ?_⟩, rfl, ?_, ?_⟩
      · rw [← List.length_pos_iff, List.length_take]
        omega
      · rwa [List.take_append_drop]
      · have hsome : (digits.drop (digits.length - (-exponent).toNat)).isEmpty = false := by
          rw [List.isEmpty_eq_false_iff, ← List.length_pos_iff, hfraction]
          omega
        simp only [unsigned, hsome]
        rfl
      · have hvalue : -(((-exponent).toNat : ℕ) : ℤ) = exponent := by omega
        simp only [decimal, List.take_append_drop, hfraction, hvalue]
    · next hplaces =>
      -- zeros in front of the digits
      refine ⟨⟨negative, ['0'], List.replicate ((-exponent).toNat - digits.length) '0' ++ digits,
        by simp, ?_⟩, rfl, by simp [unsigned, hne], ?_⟩
      · exact List.forall_mem_append.mpr ⟨isDigit_zeros 1,
          List.forall_mem_append.mpr ⟨isDigit_zeros _, hdigits⟩⟩
      · have hlength : -((List.replicate ((-exponent).toNat - digits.length) '0' ++
            digits).length : ℤ) = exponent := by
          rw [List.length_append, List.length_replicate]
          omega
        rw [decimal, hlength]
        dsimp only
        rw [show ['0'] = List.replicate 1 '0' from rfl, digitsValue_zeros_append,
          digitsValue_zeros_append]

end Numeral

section text
variable {x : Binary64}

theorem nearest?_of_magnitude_eq_zero {d : Decimal} (h : d.magnitude = 0) :
    d.nearest? = some ⟨d.negative, 0, Binary64.zero_rank_lt⟩ := by
  have hscale : (10 : ℚ) ^ d.exponent ≠ 0 := zpow_ne_zero _ (by norm_num)
  have hdigits : d.digits = 0 := by
    rw [Decimal.magnitude, mul_eq_zero, mul_eq_zero] at h
    rcases h with (h | h) | h
    · exact_mod_cast h
    · exact absurd h hscale
    · exact absurd h unitsPerOne_pos.ne'
  rw [Decimal.nearest?, if_pos (.inl hdigits)]

theorem magnitude_withSign (negative : Bool) (d : Decimal) :
    Decimal.magnitude ⟨negative, d.digits, d.exponent⟩ = d.magnitude := rfl

/-- Numbers in a query are written without an exponent. -/
theorem magnitude_query {rank : Nat} (h : rank ≠ 0) :
    NumberStyle.query.magnitude rank =
      NumberStyle.query.plain (Nat.toDigits 10 (shortest NumberStyle.query.tie rank).digits)
        (shortest NumberStyle.query.tie rank).exponent := by
  rw [NumberStyle.magnitude, if_neg h]
  exact if_pos rfl

/-- The digits of a magnitude are laid out as a numeral that rounds to it. -/
theorem Binary64.exists_magnitude (hx : x.isFinite = true) :
    ∃ n : Numeral, n.negative = x.negative ∧ n.unsigned = NumberStyle.query.magnitude x.rank ∧
      n.decimal.nearest? = some x := by
  obtain ⟨negative, rank, hrank⟩ := x
  have hfinite : rank < Binary64.infinityRank := by simpa [Binary64.isFinite] using hx
  dsimp only
  by_cases hzero : rank = 0
  · subst hzero
    obtain ⟨n, hnegative, hunsigned, hmagnitude⟩ :=
      Numeral.exists_plain negative (List.cons_ne_nil '0' []) (by simp) 0
    have hnone : n.decimal.magnitude = 0 := by
      rw [hmagnitude, Decimal.magnitude, show digitsValue ['0'] = 0 from rfl, Nat.cast_zero, zero_mul,
        zero_mul]
    refine ⟨n, hnegative, ?_, ?_⟩
    · rw [hunsigned, NumberStyle.magnitude, if_pos rfl]
    · rw [nearest?_of_magnitude_eq_zero hnone, Numeral.decimal, hnegative]
  · have hdigits : ∀ c ∈ Nat.toDigits 10 (shortest NumberStyle.query.tie rank).digits, c.isDigit = true :=
      fun c hc => Nat.isDigit_of_mem_toDigits (by decide) (by decide) hc
    obtain ⟨n, hnegative, hunsigned, hmagnitude⟩ :=
      Numeral.exists_plain negative Nat.toDigits_ne_nil hdigits (shortest NumberStyle.query.tie rank).exponent
    have hrounds : n.decimal.roundsTo rank = true := by
      rw [roundsTo_iff, hmagnitude, digitsValue_toDigits, magnitude_withSign]
      exact roundsTo_iff.mp (shortest_roundsTo NumberStyle.query.tie rank)
    refine ⟨n, hnegative, ?_, ?_⟩
    · rw [hunsigned, magnitude_query hzero]
    · have hsign : n.decimal.negative = negative := hnegative
      rw [nearest?_of_roundsTo hrounds (Nat.pos_of_ne_zero hzero) hfinite]
      simp only [hsign]

/-- **A finite number is written as a numeral that rounds to it.** -/
theorem Binary64.exists_numeral (hx : x.isFinite = true) :
    ∃ n : Numeral, x.text.toList = n.chars ∧ n.decimal.nearest? = some x := by
  obtain ⟨n, hnegative, hunsigned, hnearest⟩ := Binary64.exists_magnitude hx
  refine ⟨n, ?_, hnearest⟩
  rw [Binary64.text, if_pos hx, NumberStyle.finite, String.toList_ofList, Numeral.chars, hnegative,
    hunsigned]
  cases x.negative <;> rfl

/-- The text of a finite number is read as the number. -/
theorem Binary64.ofText?_text (hx : x.isFinite = true) : Binary64.ofText? x.text = some x := by
  obtain ⟨n, htext, hnearest⟩ := Binary64.exists_numeral hx
  rw [Binary64.ofText?, htext, n.ofText?_chars]
  exact hnearest

/-- Every number that is read off a text is finite. -/
theorem Binary64.ofText?_isFinite {text : String} (h : Binary64.ofText? text = some x) :
    x.isFinite = true := by
  rw [Binary64.ofText?, Option.bind_eq_some_iff] at h
  obtain ⟨d, -, hnearest⟩ := h
  exact Decimal.nearest?_isFinite hnearest

end text

end QueryFilter
