import Mathlib
import QueryFilter.Number.Shortest

/-! # Rounding to the nearest number

The nearest number to a decimal depends on the decimal's magnitude alone, a rational number of least
units (`Decimal.magnitude`).  A magnitude rounds to a rank when it has left the neighbourhoods of all
lower ranks and not that of the rank itself (`Rounds`); since magnitudes grow with their ranks, it
rounds to one rank only, and the search for the nearest number finds it (`nearest?_of_roundsTo`).

The shortest decimal of a number rounds to the number (`shortest_roundsTo`). -/

namespace QueryFilter

/-! ### Magnitudes grow with their ranks -/

theorem unitsOf_eq (rank : Nat) :
    unitsOf rank =
      if rank < 2 ^ 52 then rank else (2 ^ 52 + rank % 2 ^ 52) * 2 ^ (rank / 2 ^ 52 - 1) := by
  simp only [unitsOf, Nat.shiftLeft_eq, Nat.one_mul]

theorem unitsOf_lt_succ (rank : Nat) : unitsOf rank < unitsOf (rank + 1) := by
  rw [unitsOf_eq, unitsOf_eq]
  by_cases hsub : rank + 1 < 2 ^ 52
  · rw [if_pos (by omega), if_pos hsub]
    omega
  rw [if_neg hsub]
  by_cases hlast : rank < 2 ^ 52
  · -- from the last number with a short fraction to the first with a full one
    obtain rfl : rank = 2 ^ 52 - 1 := by omega
    norm_num
  rw [if_neg hlast]
  obtain ⟨q, hq⟩ : ∃ q, rank / 2 ^ 52 = q + 1 := ⟨rank / 2 ^ 52 - 1, by omega⟩
  have hpos : 0 < 2 ^ q := Nat.two_pow_pos q
  by_cases hcarry : rank % 2 ^ 52 + 1 < 2 ^ 52
  · have hquot : (rank + 1) / 2 ^ 52 = q + 1 := by omega
    have hrem : (rank + 1) % 2 ^ 52 = rank % 2 ^ 52 + 1 := by omega
    rw [hq, hquot, hrem, Nat.add_sub_cancel]
    exact Nat.mul_lt_mul_of_pos_right (by omega) hpos
  · -- the next number has the next exponent
    have hquot : (rank + 1) / 2 ^ 52 = q + 2 := by omega
    have hrem : (rank + 1) % 2 ^ 52 = 0 := by omega
    have hmax : rank % 2 ^ 52 = 2 ^ 52 - 1 := by omega
    rw [hq, hquot, hrem, hmax, Nat.add_sub_cancel, show q + 2 - 1 = q + 1 from rfl, Nat.pow_succ]
    omega

theorem unitsOf_strictMono : StrictMono unitsOf := strictMono_nat_of_lt_succ unitsOf_lt_succ

/-- Every finite number lies far below `10 ^ 400`. -/
theorem unitsOf_infinityRank_lt :
    unitsOf Binary64.infinityRank < Nat.pow 10 400 * unitsPerOne := by
  decide +kernel

/-- The least unit lies far above `10 ^ (-400)`. -/
theorem unitsPerOne_lt : 2 * unitsPerOne < Nat.pow 10 (400 + 1) := by
  decide +kernel

theorem unitsPerOne_pos : (0 : ℚ) < unitsPerOne := by
  have : 0 < unitsPerOne := by decide +kernel
  exact Nat.cast_pos.mpr this

/-! ### Magnitudes of decimals -/

/-- The magnitude of the decimal in least units. -/
def Decimal.magnitude (d : Decimal) : ℚ := d.digits * 10 ^ d.exponent * unitsPerOne

theorem Decimal.denominator_pos (d : Decimal) : 0 < d.denominator := by
  rw [Decimal.denominator]
  exact Nat.pow_pos (by decide)

theorem Decimal.numerator_eq (d : Decimal) :
    (d.numerator : ℚ) = d.magnitude * d.denominator := by
  have hscale : (10 : ℚ) ^ d.exponent.toNat = 10 ^ d.exponent * 10 ^ (-d.exponent).toNat := by
    have hexponent : (d.exponent.toNat : ℤ) = d.exponent + (-d.exponent).toNat := by omega
    rw [← zpow_natCast, ← zpow_natCast, ← zpow_add₀ (by norm_num), hexponent]
  have hnumerator : (d.numerator : ℚ) =
      d.digits * 10 ^ d.exponent.toNat * (unitsPerOne : ℚ) := by
    simp [Decimal.numerator]
  have hdenominator : (d.denominator : ℚ) = 10 ^ (-d.exponent).toNat := by
    simp [Decimal.denominator]
  rw [hnumerator, hdenominator, hscale, Decimal.magnitude]
  ring

/-- Twice the midpoint between the magnitude of this rank and the next. -/
def twiceMidpoint (rank : Nat) : Nat := unitsOf rank + unitsOf (rank + 1)

theorem twiceMidpoint_strictMono : StrictMono twiceMidpoint :=
  strictMono_nat_of_lt_succ fun rank =>
    Nat.add_lt_add (unitsOf_lt_succ rank) (unitsOf_lt_succ (rank + 1))

/-- The magnitude lies above what rounds to this rank or a lower one. -/
def Leaves (q : ℚ) (rank : Nat) : Prop :=
  twiceMidpoint rank < 2 * q ∨ (twiceMidpoint rank : ℚ) = 2 * q ∧ rank % 2 = 1

/-- The magnitude rounds to this rank. -/
def Rounds (q : ℚ) (rank : Nat) : Prop := ¬ Leaves q rank ∧ (rank = 0 ∨ Leaves q (rank - 1))

section rounding
variable {d : Decimal} {rank : Nat} {q : ℚ}

/-- The test on numerator and denominator is the one on magnitudes. -/
theorem leaves_iff : leaves d.numerator d.denominator rank = true ↔ Leaves d.magnitude rank := by
  have hpos : (0 : ℚ) < d.denominator := by exact_mod_cast d.denominator_pos
  have hlt : twiceMidpoint rank * d.denominator < 2 * d.numerator ↔
      (twiceMidpoint rank : ℚ) < 2 * d.magnitude := by
    rw [← Nat.cast_lt (α := ℚ), Nat.cast_mul, Nat.cast_mul, d.numerator_eq, Nat.cast_two,
      ← mul_assoc, mul_lt_mul_iff_left₀ hpos]
  have heq : twiceMidpoint rank * d.denominator = 2 * d.numerator ↔
      (twiceMidpoint rank : ℚ) = 2 * d.magnitude := by
    rw [← Nat.cast_inj (R := ℚ), Nat.cast_mul, Nat.cast_mul, d.numerator_eq, Nat.cast_two,
      ← mul_assoc, mul_left_inj' hpos.ne']
  simp only [leaves, Bool.or_eq_true, decide_eq_true_eq, Bool.and_eq_true, beq_iff_eq]
  exact or_congr hlt (and_congr_left' heq)

theorem roundsTo_iff : d.roundsTo rank = true ↔ Rounds d.magnitude rank := by
  rw [Rounds, ← leaves_iff, ← leaves_iff]
  simp [Decimal.roundsTo]

/-- A magnitude that has left a neighbourhood has left all lower ones. -/
theorem Leaves.of_le (h : Leaves q rank) {lower : Nat} (hle : lower ≤ rank) : Leaves q lower := by
  rcases hle.lt_or_eq with hlt | rfl
  · have hbelow : (twiceMidpoint lower : ℚ) < twiceMidpoint rank := by
      exact_mod_cast twiceMidpoint_strictMono hlt
    rcases h with h | ⟨h, -⟩
    · exact .inl (hbelow.trans h)
    · exact .inl (hbelow.trans_eq h)
  · exact h

/-- The search finds the rank that the decimal rounds to. -/
theorem nearestRank_eq (h : d.roundsTo rank = true) (hrank : rank < 1 <<< 63) :
    nearestRank d.numerator d.denominator = rank := by
  obtain ⟨hstays, hleaves⟩ := roundsTo_iff.mp h
  apply leastFailing_eq (Nat.zero_le rank)
  · rwa [Nat.zero_add]
  · intro k hk
    rcases hleaves with rfl | hleaves
    · omega
    · exact leaves_iff.mpr (hleaves.of_le (by omega))
  · intro k hk
    cases hleft : leaves d.numerator d.denominator k with
    | false => rfl
    | true => exact absurd ((leaves_iff.mp hleft).of_le hk) hstays

/-! ### Decimals in range -/

theorem digitCount_bounds {n : Nat} (h : n ≠ 0) :
    10 ^ (digitCount n - 1) ≤ n ∧ n < 10 ^ digitCount n ∧ 0 < digitCount n := by
  have hpos : 0 < digitCount n := Nat.length_toDigits_pos
  have hupper : n < 10 ^ digitCount n :=
    (Nat.length_toDigits_le_iff (by decide) hpos).mp (Nat.le_refl (digitCount n))
  refine ⟨?_, hupper, hpos⟩
  by_cases hone : digitCount n - 1 = 0
  · rw [hone]
    omega
  · by_contra hlt
    have hle : digitCount n ≤ digitCount n - 1 :=
      (Nat.length_toDigits_le_iff (by decide) (by omega)).mpr (by omega)
    omega

/-- Between which powers of ten a decimal lies. -/
theorem Decimal.magnitude_bounds (hdigits : d.digits ≠ 0) :
    10 ^ ((digitCount d.digits : ℤ) + d.exponent - 1) * (unitsPerOne : ℚ) ≤ d.magnitude ∧
      d.magnitude < 10 ^ ((digitCount d.digits : ℤ) + d.exponent) * (unitsPerOne : ℚ) := by
  obtain ⟨hlower, hupper, hcount⟩ := digitCount_bounds hdigits
  have hscale : (0 : ℚ) < 10 ^ d.exponent := by positivity
  have hunits := unitsPerOne_pos
  have hsplit : (digitCount d.digits : ℤ) + d.exponent - 1 =
      ((digitCount d.digits - 1 : ℕ) : ℤ) + d.exponent := by omega
  rw [Decimal.magnitude]
  generalize (unitsPerOne : ℚ) = units at hunits ⊢
  constructor
  · have hdigits : (10 : ℚ) ^ (digitCount d.digits - 1) ≤ d.digits := by exact_mod_cast hlower
    rw [hsplit, zpow_add₀ (by norm_num), zpow_natCast]
    gcongr
  · have hdigits : (d.digits : ℚ) < 10 ^ digitCount d.digits := by exact_mod_cast hupper
    rw [zpow_add₀ (by norm_num), zpow_natCast]
    gcongr

/-- What leaves the neighbourhood of a magnitude is at least half of the least unit. -/
theorem Leaves.half_le (h : Leaves q rank) : 1 ≤ 2 * q := by
  have hleaves : Leaves q 0 := h.of_le (Nat.zero_le rank)
  have hmid : (twiceMidpoint 0 : ℚ) = 1 := by
    have : twiceMidpoint 0 = 1 := by decide
    rw [this, Nat.cast_one]
  rw [Leaves, hmid] at hleaves
  rcases hleaves with hlt | ⟨heq, -⟩
  · exact hlt.le
  · exact heq.le

/-- What rounds to a positive number is at least half of the least unit. -/
theorem Rounds.half_le (h : Rounds q rank) (hpos : 0 < rank) : 1 ≤ 2 * q :=
  (h.2.resolve_left hpos.ne').half_le

/-- What rounds to a finite number is at most the first magnitude out of range. -/
theorem Rounds.le_infinity (h : Rounds q rank) (hfinite : rank < Binary64.infinityRank) :
    q ≤ unitsOf Binary64.infinityRank := by
  have hmid : 2 * q ≤ twiceMidpoint rank := by
    by_contra hlt
    exact h.1 (.inl (not_le.mp hlt))
  have hbelow : twiceMidpoint rank ≤ 2 * unitsOf Binary64.infinityRank := by
    have hnext := unitsOf_strictMono.monotone (show rank + 1 ≤ Binary64.infinityRank from hfinite)
    have hthis := unitsOf_strictMono.monotone hfinite.le
    rw [twiceMidpoint]
    omega
  have hcast : (twiceMidpoint rank : ℚ) ≤ 2 * unitsOf Binary64.infinityRank := by
    exact_mod_cast hbelow
  linarith

/-- A decimal of at least half a unit is not zero. -/
theorem Decimal.digits_ne_zero (hhalf : 1 ≤ 2 * d.magnitude) : d.digits ≠ 0 := by
  intro hzero
  rw [Decimal.magnitude, hzero, Nat.cast_zero, zero_mul, zero_mul, mul_zero] at hhalf
  norm_num at hhalf

/-- A decimal of at least half a unit is not tiny. -/
theorem Decimal.le_places (hdigits : d.digits ≠ 0) (hhalf : 1 ≤ 2 * d.magnitude) {n : Nat}
    (hn : 2 * unitsPerOne < Nat.pow 10 (n + 1)) :
    -(n : ℤ) ≤ (digitCount d.digits : ℤ) + d.exponent := by
  by_contra htiny
  obtain ⟨-, hupper⟩ := Decimal.magnitude_bounds hdigits
  have hn : 2 * (unitsPerOne : ℚ) < 10 ^ ((n : ℤ) + 1) := by
    rw [← Nat.cast_succ, zpow_natCast]
    exact_mod_cast hn
  have hunits := unitsPerOne_pos
  generalize (unitsPerOne : ℚ) = units at hunits hn hupper
  have hpower : (10 : ℚ) ^ ((digitCount d.digits : ℤ) + d.exponent) ≤ 10 ^ (-((n : ℤ) + 1)) :=
    zpow_le_zpow_right₀ (by norm_num) (by omega)
  have hcancel : (10 : ℚ) ^ (-((n : ℤ) + 1)) * 10 ^ ((n : ℤ) + 1) = 1 := by
    rw [← zpow_add₀ (by norm_num), neg_add_cancel, zpow_zero]
  have hlarge : (0 : ℚ) < 10 ^ (-((n : ℤ) + 1)) := by positivity
  nlinarith

/-- A decimal below a bound is not huge. -/
theorem Decimal.places_le (hdigits : d.digits ≠ 0) {bound n : Nat} (hbound : d.magnitude ≤ bound)
    (hn : bound < Nat.pow 10 n * unitsPerOne) :
    (digitCount d.digits : ℤ) + d.exponent ≤ n := by
  by_contra hhuge
  obtain ⟨hlower, -⟩ := Decimal.magnitude_bounds hdigits
  have hn : (bound : ℚ) < 10 ^ (n : ℤ) * unitsPerOne := by
    rw [zpow_natCast]
    exact_mod_cast hn
  have hunits := unitsPerOne_pos
  generalize (unitsPerOne : ℚ) = units at hunits hn hlower
  have hpower : (10 : ℚ) ^ (n : ℤ) ≤ 10 ^ ((digitCount d.digits : ℤ) + d.exponent - 1) :=
    zpow_le_zpow_right₀ (by norm_num) (by omega)
  have hscaled : 10 ^ (n : ℤ) * units ≤
      10 ^ ((digitCount d.digits : ℤ) + d.exponent - 1) * units := by gcongr
  linarith

/-- **Rounding to nearest** finds the positive finite number that a decimal rounds to. -/
theorem nearest?_of_roundsTo (h : d.roundsTo rank = true) (hpos : 0 < rank)
    (hfinite : rank < Binary64.infinityRank) :
    d.nearest? = some ⟨d.negative, rank, Nat.lt_trans hfinite (by decide)⟩ := by
  have hrounds := roundsTo_iff.mp h
  have hhalf := hrounds.half_le hpos
  have hdigits := Decimal.digits_ne_zero hhalf
  have htiny := Decimal.le_places hdigits hhalf unitsPerOne_lt
  have hhuge := Decimal.places_le hdigits (hrounds.le_infinity hfinite) unitsOf_infinityRank_lt
  have hrank := nearestRank_eq h (Nat.lt_trans hfinite (by decide))
  unfold Decimal.nearest?
  dsimp only
  rw [if_neg (by omega), if_neg (by omega)]
  simp only [hrank]
  rw [dif_pos hfinite]

/-- The search does not end before a number up to which the test passes. -/
theorem le_leastFailing {test : Nat → Bool} {bits start least : Nat}
    (hend : least < start + 1 <<< bits) (hpass : ∀ k, k < least → test k = true) :
    least ≤ leastFailing test bits start := by
  induction bits generalizing start with
  | zero =>
      rw [Nat.shiftLeft_zero] at hend
      rw [leastFailing]
      omega
  | succ bits ih =>
      rw [Nat.shiftLeft_succ] at hend
      rw [leastFailing]
      split
      · exact ih (by omega)
      · next hfails =>
        have hle : ¬ start + 1 <<< bits - 1 < least := fun hlt => hfails (hpass _ hlt)
        have hpos : 0 < 1 <<< bits := by
          rw [Nat.one_shiftLeft]
          exact Nat.two_pow_pos bits
        exact ih (by omega)

/-- No finite number is the nearest to a decimal above the neighbourhood of the greatest one. -/
theorem nearest?_of_leaves (h : Leaves d.magnitude (Binary64.infinityRank - 1)) :
    d.nearest? = none := by
  have hhalf := h.half_le
  have hdigits := Decimal.digits_ne_zero hhalf
  have htiny := Decimal.le_places hdigits hhalf unitsPerOne_lt
  have hrank : Binary64.infinityRank ≤ nearestRank d.numerator d.denominator := by
    apply le_leastFailing (by decide)
    exact fun k hk => leaves_iff.mpr (h.of_le (by omega))
  unfold Decimal.nearest?
  dsimp only
  rw [if_neg (by omega)]
  split
  · rfl
  · rw [dif_neg (by omega)]

/-- Every number that is read is finite. -/
theorem Decimal.nearest?_isFinite {x : Binary64} (h : d.nearest? = some x) : x.isFinite = true := by
  unfold Decimal.nearest? at h
  dsimp only at h
  split at h
  · cases h
    exact decide_eq_true (by decide : 0 < Binary64.infinityRank)
  split at h
  · cases h
  split at h
  · next hfinite =>
    cases h
    simpa [Binary64.isFinite] using hfinite
  · cases h

end rounding

/-! ### The shortest decimal -/

section shortest
variable {tie : Tie} {rank : Nat}

theorem gridDecimal?_roundsTo {exponent : Int} {d : Decimal}
    (h : gridDecimal? tie rank exponent = some d) : d.roundsTo rank = true := by
  unfold gridDecimal? at h
  dsimp only at h
  have htest := List.find?_some h
  exact htest

/-- A number rounds to itself. -/
theorem rounds_unitsOf (rank : Nat) : Rounds (unitsOf rank) rank := by
  have hnext : (unitsOf rank : ℚ) < unitsOf (rank + 1) := by exact_mod_cast unitsOf_lt_succ rank
  constructor
  · rw [Leaves, twiceMidpoint, Nat.cast_add]
    rintro (hlt | ⟨heq, -⟩)
    · linarith
    · linarith
  · cases rank with
    | zero => exact .inl rfl
    | succ rank =>
        have hthis : (unitsOf rank : ℚ) < unitsOf (rank + 1) := by
          exact_mod_cast unitsOf_lt_succ rank
        refine .inr (.inl ?_)
        rw [Nat.add_sub_cancel, twiceMidpoint, Nat.cast_add]
        linarith

theorem magnitude_pow_five (units : Nat) {n : Nat} (hn : unitsPerOne = 1 <<< n) :
    Decimal.magnitude ⟨false, units * Nat.pow 5 n, -(n : ℤ)⟩ = units := by
  have hcast : ((units * Nat.pow 5 n : ℕ) : ℚ) = units * 5 ^ n := by simp
  have hcancel : (5 : ℚ) ^ n * (10 ^ n)⁻¹ * 2 ^ n = 1 := by
    rw [mul_right_comm, ← mul_pow, show (5 : ℚ) * 2 = 10 by norm_num]
    exact mul_inv_cancel₀ (pow_ne_zero n (by norm_num))
  rw [Decimal.magnitude, hcast, hn, zpow_neg, zpow_natCast, Nat.one_shiftLeft, Nat.cast_pow,
    Nat.cast_ofNat]
  calc (units : ℚ) * 5 ^ n * (10 ^ n)⁻¹ * 2 ^ n
      = units * (5 ^ n * (10 ^ n)⁻¹ * 2 ^ n) := by ring
    _ = units := by rw [hcancel, mul_one]

theorem magnitude_exactDecimal (units : Nat) : (exactDecimal units).magnitude = units :=
  magnitude_pow_five units rfl

/-- Trailing zeros of the digits do not change the magnitude. -/
theorem magnitude_stripZeros (negative : Bool) (digits : Nat) (exponent : Int) :
    Decimal.magnitude ⟨negative, (stripZeros digits exponent).1, (stripZeros digits exponent).2⟩ =
      Decimal.magnitude ⟨negative, digits, exponent⟩ := by
  fun_induction stripZeros digits exponent with
  | case1 => rfl
  | case2 n exponent hzero ih =>
      have hdigits : ((n + 1 : ℕ) : ℚ) = ((n + 1) / 10 : ℕ) * 10 := by
        have : n + 1 = (n + 1) / 10 * 10 := by omega
        exact_mod_cast this
      rw [ih, Decimal.magnitude, Decimal.magnitude, zpow_add₀ (by norm_num), zpow_one]
      dsimp only
      rw [hdigits]
      ring
  | case3 => rfl

theorem stripped_roundsTo {d : Decimal} (h : d.roundsTo rank = true) :
    d.stripped.roundsTo rank = true := by
  have hmagnitude : d.stripped.magnitude = d.magnitude :=
    magnitude_stripZeros d.negative d.digits d.exponent
  rw [roundsTo_iff, hmagnitude]
  exact roundsTo_iff.mp h

/-- **The shortest decimal of a number rounds to it.** -/
theorem shortest_roundsTo (tie : Tie) (rank : Nat) : (shortest tie rank).roundsTo rank = true := by
  rw [shortest]
  apply stripped_roundsTo
  cases hfound : (List.range 17).findSome? fun n =>
      gridDecimal? tie rank (leadingExponent (unitsOf rank) - (n : Nat)) with
  | none =>
      rw [Option.getD_none, roundsTo_iff, magnitude_exactDecimal]
      exact rounds_unitsOf rank
  | some d =>
      obtain ⟨n, -, hgrid⟩ := List.exists_of_findSome?_eq_some hfound
      exact gridDecimal?_roundsTo hgrid

end shortest

end QueryFilter
