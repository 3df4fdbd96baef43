import Mathlib
import QueryFilter.Document
import QueryFilter.Proofs.Number.Rounding

/-! # The nearest number, and numbers that are integers

A number is nearest to a rational number if no other number is nearer, and if of two equally near
ones it is the even one (`Binary64.IsNearest`).  Infinity takes part with the first magnitude that is
out of range.  Rounding a decimal gives the nearest number if that is finite, and otherwise nothing
(`Binary64.IsNearest.nearest?_eq`, `Binary64.IsNearest.nearest?_eq_none`).

All integers below `2 ^ 53` are numbers (`exists_unitsOf_eq_mul`), and these are the numbers that are
stored as integers (`Datum.ofNumber_eq_int_iff`). -/

namespace QueryFilter

namespace Binary64

/-! ### Values -/

/-- The value of a number.  For infinity it is the first magnitude out of range. -/
def value (x : Binary64) : ℚ := (if x.negative then -1 else 1) * (x.units / unitsPerOne)

/-- The number is nearest to `q`: none is nearer, and if another one is as near, it is even. -/
structure IsNearest (x : Binary64) (q : ℚ) : Prop where
  isNaN_eq : x.isNaN = false
  le : ∀ y : Binary64, y.isNaN = false → |x.value - q| ≤ |y.value - q|
  even : ∀ y : Binary64, y.isNaN = false → |y.value - q| = |x.value - q| → y.value ≠ x.value →
    x.rank % 2 = 0

/-- The number of the given rank on the side of `q`. -/
def onSide (q : ℚ) (rank : Nat) (h : rank ≤ infinityRank) : Binary64 :=
  ⟨decide (q < 0), rank, Nat.lt_of_le_of_lt h (by decide)⟩

section values
variable {x : Binary64} {q : ℚ} {rank : Nat}

theorem isNaN_eq_false_iff : x.isNaN = false ↔ x.rank ≤ infinityRank := by
  rw [isNaN, decide_eq_false_iff_not, not_lt]

theorem isFinite_onSide (h : rank ≤ infinityRank) :
    (onSide q rank h).isFinite = decide (rank < infinityRank) := rfl

theorem abs_value_mul (x : Binary64) : |x.value| * unitsPerOne = x.units := by
  have hunits := unitsPerOne_pos
  have hnonneg : (0 : ℚ) ≤ x.units / unitsPerOne := div_nonneg (Nat.cast_nonneg _) hunits.le
  have hsign : |(if x.negative then -1 else 1 : ℚ)| = 1 := by
    cases x.negative <;> simp
  rw [value, abs_mul, hsign, abs_of_nonneg hnonneg, one_mul, div_mul_cancel₀ _ hunits.ne']

/-- No number is nearer to `q` than its magnitude is to that of `q`. -/
theorem le_abs_value_sub (x : Binary64) (q : ℚ) :
    |(x.units : ℚ) - |q| * unitsPerOne| ≤ |x.value - q| * unitsPerOne := by
  have hunits := unitsPerOne_pos
  rw [← abs_value_mul, ← sub_mul, abs_mul, abs_of_pos hunits]
  exact mul_le_mul_of_nonneg_right (abs_abs_sub_abs_le x.value q) hunits.le

/-- A number on the side of `q` is as far from it as their magnitudes are. -/
theorem abs_onSide_sub (h : rank ≤ infinityRank) :
    |(onSide q rank h).value - q| * unitsPerOne = |(unitsOf rank : ℚ) - |q| * unitsPerOne| := by
  have hunits := unitsPerOne_pos
  have hvalue : (onSide q rank h).value - q =
      (if q < 0 then -1 else 1) * ((unitsOf rank : ℚ) / unitsPerOne - |q|) := by
    rw [value, onSide]
    by_cases hq : q < 0
    · simp only [units, decide_eq_true_eq, if_pos hq, abs_of_neg hq]
      ring
    · simp only [units, decide_eq_true_eq, if_neg hq, abs_of_nonneg (not_lt.mp hq)]
      ring
  have hsign : |(if q < 0 then -1 else 1 : ℚ)| = 1 := by
    split <;> simp
  have hscale : (unitsOf rank : ℚ) - |q| * unitsPerOne =
      ((unitsOf rank : ℚ) / unitsPerOne - |q|) * unitsPerOne := by
    rw [sub_mul, div_mul_cancel₀ _ hunits.ne']
  rw [hvalue, abs_mul, hsign, one_mul, hscale, abs_mul, abs_of_pos hunits]

end values

/-- A number is nearest to its own value. -/
theorem isNearest_value (x : Binary64) (hfinite : x.isFinite = true) : x.IsNearest x.value := by
  refine ⟨isNaN_eq_false_iff.mpr (of_decide_eq_true hfinite : x.rank < infinityRank).le,
    fun y _ => ?_, fun y _ heq hne => ?_⟩
  · rw [sub_self, abs_zero]
    exact abs_nonneg _
  · rw [sub_self, abs_zero, abs_eq_zero, sub_eq_zero] at heq
    exact absurd heq hne

/-! ### Rounding to nearest -/

section midpoints
variable {a b u : ℚ}

/-- The upper one of two points is nearer to what lies above their midpoint. -/
theorem upper_nearer_iff (h : a < b) : |b - u| ≤ |a - u| ↔ a + b ≤ 2 * u := by
  have hfactor : (a - u) ^ 2 - (b - u) ^ 2 = (b - a) * (2 * u - (a + b)) := by ring
  rw [← sq_le_sq, ← sub_nonneg, hfactor, mul_nonneg_iff_of_pos_left (sub_pos.mpr h), sub_nonneg]

/-- Two points are equally near to what lies between them. -/
theorem abs_sub_eq_iff (h : a < b) : |a - u| = |b - u| ↔ a + b = 2 * u := by
  have hfactor : (a - u) ^ 2 - (b - u) ^ 2 = (b - a) * (2 * u - (a + b)) := by ring
  rw [← sq_eq_sq_iff_abs_eq_abs, ← sub_eq_zero, hfactor, mul_eq_zero_iff_left (sub_pos.mpr h).ne',
    sub_eq_zero, eq_comm]

end midpoints

namespace IsNearest
variable {x : Binary64} {q : ℚ} {rank : Nat}

theorem rank_le (h : x.IsNearest q) : x.rank ≤ infinityRank := isNaN_eq_false_iff.mp h.isNaN_eq

/-- The magnitude of the nearest number is as near as any other one. -/
theorem abs_units_sub_le (h : x.IsNearest q) (hrank : rank ≤ infinityRank) :
    |(x.units : ℚ) - |q| * unitsPerOne| ≤ |(unitsOf rank : ℚ) - |q| * unitsPerOne| := by
  have hle := h.le (onSide q rank hrank) (isNaN_eq_false_iff.mpr hrank)
  calc |(x.units : ℚ) - |q| * unitsPerOne| ≤ |x.value - q| * unitsPerOne := le_abs_value_sub x q
    _ ≤ |(onSide q rank hrank).value - q| * unitsPerOne :=
        mul_le_mul_of_nonneg_right hle unitsPerOne_pos.le
    _ = |(unitsOf rank : ℚ) - |q| * unitsPerOne| := abs_onSide_sub hrank

/-- If another magnitude is as near, the rank of the nearest number is even. -/
theorem even_of_abs_units_sub_eq (h : x.IsNearest q) (hrank : rank ≤ infinityRank)
    (hne : rank ≠ x.rank)
    (heq : |(unitsOf rank : ℚ) - |q| * unitsPerOne| = |(x.units : ℚ) - |q| * unitsPerOne|) :
    x.rank % 2 = 0 := by
  have hle := h.le (onSide q rank hrank) (isNaN_eq_false_iff.mpr hrank)
  have hge : |(onSide q rank hrank).value - q| * unitsPerOne ≤ |x.value - q| * unitsPerOne := by
    rw [abs_onSide_sub, heq]
    exact le_abs_value_sub x q
  refine h.even (onSide q rank hrank) (isNaN_eq_false_iff.mpr hrank)
    (le_antisymm (le_of_mul_le_mul_right hge unitsPerOne_pos) hle) ?_
  intro hvalue
  have hunits : (unitsOf rank : ℚ) = unitsOf x.rank := by
    have hmagnitude := congrArg (fun v => |v| * (unitsPerOne : ℚ)) hvalue
    simpa only [abs_value_mul, units, onSide] using hmagnitude
  exact hne (unitsOf_strictMono.injective (Nat.cast_injective hunits))

/-- The magnitude of `q` has left the neighbourhoods of all magnitudes below the nearest one. -/
theorem leaves (h : x.IsNearest q) (hpos : 0 < x.rank) :
    Leaves (|q| * unitsPerOne) (x.rank - 1) := by
  have hrank : x.rank - 1 ≤ infinityRank := (Nat.sub_le _ _).trans h.rank_le
  have hbelow : (unitsOf (x.rank - 1) : ℚ) < x.units := by
    exact_mod_cast unitsOf_strictMono (Nat.sub_one_lt hpos.ne')
  have hmid : (twiceMidpoint (x.rank - 1) : ℚ) = unitsOf (x.rank - 1) + x.units := by
    rw [twiceMidpoint, Nat.sub_add_cancel hpos, Nat.cast_add, units]
  rw [Leaves, hmid]
  rcases ((upper_nearer_iff hbelow).mp (h.abs_units_sub_le hrank)).lt_or_eq with hlt | heq
  · exact .inl hlt
  · have heven := h.even_of_abs_units_sub_eq hrank (by omega) ((abs_sub_eq_iff hbelow).mpr heq)
    exact .inr ⟨heq, by omega⟩

/-- The magnitude of `q` stays in the neighbourhood of the nearest one. -/
theorem not_leaves (h : x.IsNearest q) (hfinite : x.rank < infinityRank) :
    ¬Leaves (|q| * unitsPerOne) x.rank := by
  have hrank : x.rank + 1 ≤ infinityRank := hfinite
  have habove : (x.units : ℚ) < unitsOf (x.rank + 1) := by
    exact_mod_cast unitsOf_lt_succ x.rank
  have hmid : (twiceMidpoint x.rank : ℚ) = x.units + unitsOf (x.rank + 1) := by
    rw [twiceMidpoint, Nat.cast_add, units]
  rw [Leaves, hmid]
  rintro (hlt | ⟨heq, hodd⟩)
  · have hnearer := (upper_nearer_iff habove).mpr hlt.le
    have heq := (abs_sub_eq_iff habove).mp (le_antisymm (h.abs_units_sub_le hrank) hnearer)
    exact hlt.ne heq
  · have heven := h.even_of_abs_units_sub_eq hrank (by omega) ((abs_sub_eq_iff habove).mpr heq).symm
    omega

/-- The nearest number to what is at least one is not zero. -/
theorem rank_pos (h : x.IsNearest q) (hq : 1 ≤ |q|) : 0 < x.rank := by
  by_contra hzero
  have hrank : x.rank = 0 := by omega
  have hunits : (1 : ℚ) ≤ unitsPerOne := by exact_mod_cast unitsPerOne_pos
  have hmid : (twiceMidpoint 0 : ℚ) = 1 := by
    have : twiceMidpoint 0 = 1 := by decide
    rw [this, Nat.cast_one]
  have hstays := h.not_leaves (by rw [hrank]; decide)
  rw [hrank, Leaves, hmid] at hstays
  exact hstays (.inl (by nlinarith))

/-- The nearest number lies on the side of `q`. -/
theorem negative_eq (h : x.IsNearest q) (hpos : 0 < x.rank) : x.negative = decide (q < 0) := by
  have hunits := unitsPerOne_pos
  have hq : q ≠ 0 := by
    rintro rfl
    have hhalf := (h.leaves hpos).half_le
    norm_num at hhalf
  have hmagnitude : (0 : ℚ) < x.units / unitsPerOne := by
    have hlt : 0 < x.units := (Nat.zero_le _).trans_lt (unitsOf_strictMono hpos)
    exact div_pos (by exact_mod_cast hlt) hunits
  have hle : |x.value - q| ≤ |(|x.value| - |q|)| := by
    have hnear := h.le (onSide q x.rank h.rank_le) (isNaN_eq_false_iff.mpr h.rank_le)
    rw [← mul_le_mul_iff_left₀ hunits, abs_onSide_sub] at hnear
    rwa [← units, ← abs_value_mul, ← sub_mul, abs_mul, abs_of_pos hunits,
      mul_le_mul_iff_left₀ hunits] at hnear
  have hside : |x.value * q| ≤ x.value * q := by
    rw [← sq_le_sq, sub_sq, sub_sq, sq_abs, sq_abs, mul_assoc, mul_assoc, ← abs_mul] at hle
    linarith
  have hside : 0 ≤ x.value * q := (abs_nonneg _).trans hside
  by_cases hneg : q < 0
  · rw [decide_eq_true hneg]
    by_contra hsign
    rw [value, if_neg hsign, one_mul] at hside
    nlinarith
  · rw [decide_eq_false hneg]
    by_contra hsign
    have hgt : 0 < q := lt_of_le_of_ne (not_lt.mp hneg) hq.symm
    rw [value, if_pos (Bool.not_eq_false _ ▸ hsign)] at hside
    nlinarith

/-- What does not lie below a number is not rounded to one below it. -/
theorem le_rank (h : x.IsNearest q) (hrank : rank ≤ infinityRank)
    (hle : (unitsOf rank : ℚ) ≤ |q| * unitsPerOne) : rank ≤ x.rank := by
  have hnear := h.abs_units_sub_le hrank
  rw [abs_of_nonpos (sub_nonpos.mpr hle)] at hnear
  have hunits : (unitsOf rank : ℚ) ≤ x.units := by linarith [neg_le_abs ((x.units : ℚ) - |q| * unitsPerOne)]
  exact unitsOf_strictMono.le_iff_le.mp (by exact_mod_cast hunits)

section decimals
variable {d : Decimal}

/-- **Rounding a decimal gives the nearest number**, if it is finite. -/
theorem nearest?_eq (h : x.IsNearest q) (hpos : 0 < x.rank) (hfinite : x.isFinite = true)
    (hmagnitude : d.magnitude = |q| * unitsPerOne) (hnegative : d.negative = decide (q < 0)) :
    d.nearest? = some x := by
  have hlt : x.rank < infinityRank := of_decide_eq_true hfinite
  have hrounds : d.roundsTo x.rank = true := by
    rw [roundsTo_iff, hmagnitude]
    exact ⟨h.not_leaves hlt, .inr (h.leaves hpos)⟩
  rw [nearest?_of_roundsTo hrounds hpos hlt]
  obtain ⟨negative, rank, hrank⟩ := x
  simp only [Option.some.injEq, mk.injEq, and_true]
  rw [hnegative, ← h.negative_eq hpos]

/-- Rounding a decimal gives nothing if the nearest number is infinite. -/
theorem nearest?_eq_none (h : x.IsNearest q) (hinfinite : x.isFinite = false)
    (hmagnitude : d.magnitude = |q| * unitsPerOne) : d.nearest? = none := by
  have hge : ¬x.rank < infinityRank := of_decide_eq_false hinfinite
  have hrank : x.rank = infinityRank := le_antisymm h.rank_le (not_lt.mp hge)
  apply nearest?_of_leaves
  rw [hmagnitude, ← hrank]
  exact h.leaves (by rw [hrank]; decide)

end decimals

end IsNearest

section existence
variable {q u : ℚ} {rank other : Nat}

/-- A magnitude stays between the neighbourhoods below and above it, so no other one is nearer, and
an even one only is as near. -/
theorem abs_units_sub_le_of_leaves (hleaves : rank = 0 ∨ Leaves u (rank - 1))
    (hstays : rank < infinityRank → ¬Leaves u rank) (hother : other ≤ infinityRank)
    (hne : other ≠ rank) :
    |(unitsOf rank : ℚ) - u| ≤ |(unitsOf other : ℚ) - u| ∧
      (|(unitsOf other : ℚ) - u| = |(unitsOf rank : ℚ) - u| → rank % 2 = 0) := by
  rcases hne.lt_or_gt with hlt | hgt
  · -- Below, all midpoints are left behind.
    have hbelow : (unitsOf other : ℚ) < unitsOf rank := by
      exact_mod_cast unitsOf_strictMono hlt
    have hmid : (unitsOf other : ℚ) + unitsOf rank ≤ twiceMidpoint (rank - 1) := by
      have hle := unitsOf_strictMono.monotone (show other ≤ rank - 1 by omega)
      rw [twiceMidpoint, Nat.sub_add_cancel (by omega)]
      exact_mod_cast Nat.add_le_add_right hle _
    rcases hleaves.resolve_left (by omega) with hleft | ⟨hleft, hodd⟩
    · refine ⟨(upper_nearer_iff hbelow).mpr (by linarith), fun heq => ?_⟩
      have := (abs_sub_eq_iff hbelow).mp heq
      linarith
    · exact ⟨(upper_nearer_iff hbelow).mpr (by linarith), fun _ => by omega⟩
  · -- Above, no midpoint is left behind.
    have habove : (unitsOf rank : ℚ) < unitsOf other := by
      exact_mod_cast unitsOf_strictMono hgt
    have hmid : (twiceMidpoint rank : ℚ) ≤ unitsOf rank + unitsOf other := by
      have hle := unitsOf_strictMono.monotone (show rank + 1 ≤ other from hgt)
      rw [twiceMidpoint]
      exact_mod_cast Nat.add_le_add_left hle _
    have hstays := hstays (by omega)
    rw [Leaves, not_or, not_and, not_lt] at hstays
    constructor
    · by_contra hnearer
      have := (upper_nearer_iff habove).mp (not_le.mp hnearer).le
      have heq := (abs_sub_eq_iff (u := u) habove).mpr (by linarith)
      exact hnearer heq.le
    · intro heq
      have := (abs_sub_eq_iff habove).mp heq.symm
      have := hstays.2 (by linarith)
      omega

/-- A number on the side of `q` is nearest if the magnitude of `q` stays in its neighbourhood. -/
theorem isNearest_onSide (hrank : rank ≤ infinityRank)
    (hleaves : rank = 0 ∨ Leaves (|q| * unitsPerOne) (rank - 1))
    (hstays : rank < infinityRank → ¬Leaves (|q| * unitsPerOne) rank) :
    (onSide q rank hrank).IsNearest q := by
  have hunits := unitsPerOne_pos
  have hnearest (y : Binary64) (hy : y.isNaN = false) (hne : y.rank ≠ rank) :=
    abs_units_sub_le_of_leaves hleaves hstays (isNaN_eq_false_iff.mp hy) hne
  refine ⟨isNaN_eq_false_iff.mpr hrank, fun y hy => ?_, fun y hy heq hvalue => ?_⟩
  · rw [← mul_le_mul_iff_left₀ hunits, abs_onSide_sub]
    refine le_trans ?_ (le_abs_value_sub y q)
    by_cases hne : y.rank = rank
    · rw [units, hne]
    · exact (hnearest y hy hne).1
  · by_cases hne : y.rank = rank
    · -- The other one is the number with the other sign, which is as near to zero only.
      rcases hleaves with hzero | hleft
      · exact congrArg (· % 2) hzero
      · have hq : q ≠ 0 := by
          rintro rfl
          have hhalf := hleft.half_le
          norm_num at hhalf
        have hmagnitude : |y.value| = |(onSide q rank hrank).value| := by
          rw [← mul_left_inj' hunits.ne', abs_value_mul, abs_value_mul, units, hne]
          rfl
        have hneg := (abs_eq_abs.mp hmagnitude).resolve_left hvalue
        rw [hneg, ← sq_eq_sq_iff_abs_eq_abs] at heq
        have hproduct : (onSide q rank hrank).value * q = 0 := by linarith
        have hzero := (mul_eq_zero.mp hproduct).resolve_right hq
        rw [hzero, neg_zero] at hneg
        exact absurd (hneg.trans hzero.symm) hvalue
    · have hle := le_abs_value_sub y q
      rw [heq, abs_onSide_sub] at hle
      exact (hnearest y hy hne).2 (le_antisymm hle (hnearest y hy hne).1)

/-- There always is a nearest number. -/
theorem exists_isNearest (q : ℚ) : ∃ x : Binary64, x.IsNearest q := by
  classical
  have hsome : ∃ rank, rank = infinityRank ∨ ¬Leaves (|q| * unitsPerOne) rank :=
    ⟨infinityRank, .inl rfl⟩
  -- The first rank whose neighbourhood is not left, if there is one below infinity.
  refine ⟨_, isNearest_onSide (Nat.find_min' hsome (.inl rfl)) ?_
    fun hlt => (Nat.find_spec hsome).resolve_left hlt.ne⟩
  by_cases hzero : Nat.find hsome = 0
  · exact .inl hzero
  · have hbefore := Nat.find_min hsome (Nat.sub_one_lt hzero)
    rw [not_or, not_not] at hbefore
    exact .inr hbefore.2

end existence

end Binary64

/-! ### Integers -/

section integers
variable {x : Binary64} {n : Int}

/-- A number with a full fraction is its leading digits, scaled. -/
theorem unitsOf_scaled {digits : Nat} (hlow : 2 ^ 52 ≤ digits) (hhigh : digits < 2 ^ 53) (scale : Nat) :
    unitsOf (scale * 2 ^ 52 + digits) = digits * 2 ^ scale := by
  have hquot : (scale * 2 ^ 52 + digits) / 2 ^ 52 = scale + 1 := by omega
  have hrem : 2 ^ 52 + (scale * 2 ^ 52 + digits) % 2 ^ 52 = digits := by omega
  rw [unitsOf_eq, if_neg (by omega), hquot, hrem, Nat.add_sub_cancel]

/-- Every integer below `2 ^ 53` is the magnitude of a number. -/
theorem exists_unitsOf_eq_mul {m : Nat} (hpos : 0 < m) (hlt : m < 2 ^ 53) :
    ∃ rank, 0 < rank ∧ rank < Binary64.infinityRank ∧ unitsOf rank = m * unitsPerOne := by
  have hlow : 2 ^ m.log2 ≤ m := Nat.log2_self_le hpos.ne'
  have hhigh : m < 2 ^ (m.log2 + 1) := Nat.lt_log2_self
  have hlog : m.log2 < 53 := (Nat.log2_lt hpos.ne').mpr hlt
  generalize m.log2 = e at hlow hhigh hlog
  -- The digits are shifted up until they fill the fraction.
  have hscale : 2 ^ (52 - e) * 2 ^ e = 2 ^ 52 := by
    rw [← Nat.pow_add, Nat.sub_add_cancel (by omega)]
  have hlow' : 2 ^ 52 ≤ m * 2 ^ (52 - e) := by
    rw [← hscale, Nat.mul_comm m]
    exact Nat.mul_le_mul_left _ hlow
  have hhigh' : m * 2 ^ (52 - e) < 2 ^ 53 := by
    have hfull : 2 ^ 53 = 2 ^ (52 - e) * 2 ^ (e + 1) := by
      rw [Nat.pow_succ 2 e, ← Nat.mul_assoc, hscale, ← Nat.pow_succ]
    rw [hfull, Nat.mul_comm m]
    exact Nat.mul_lt_mul_of_pos_left hhigh (Nat.two_pow_pos _)
  refine ⟨(e + 1022) * 2 ^ 52 + m * 2 ^ (52 - e), by omega, ?_, ?_⟩
  · have hinfinity : Binary64.infinityRank = 2047 * 2 ^ 52 := by decide
    omega
  · have hexponent : 52 - e + (e + 1022) = 1074 := by omega
    rw [unitsOf_scaled hlow' hhigh', Nat.mul_assoc, ← Nat.pow_add, hexponent, unitsPerOne,
      Nat.one_shiftLeft]

/-- So is `2 ^ 53`. -/
theorem unitsOf_two_pow : unitsOf (1075 * 2 ^ 52 + 2 ^ 52) = 2 ^ 53 * unitsPerOne := by
  rw [unitsOf_scaled (Nat.le_refl (2 ^ 52)) (by decide), unitsPerOne, Nat.one_shiftLeft,
    ← Nat.pow_add, ← Nat.pow_add]

/-- The number nearest to what is not below `2 ^ 53` is not below it either. -/
theorem Binary64.IsNearest.two_pow_le {q : ℚ} (h : x.IsNearest q) (hq : 2 ^ 53 ≤ |q|) :
    2 ^ 53 ≤ |x.value| := by
  have hunits := unitsPerOne_pos
  have htwo : (unitsOf (1075 * 2 ^ 52 + 2 ^ 52) : ℚ) = 2 ^ 53 * unitsPerOne := by
    exact_mod_cast unitsOf_two_pow
  have hrank := h.le_rank (by decide) (htwo.trans_le (mul_le_mul_of_nonneg_right hq hunits.le))
  rw [← mul_le_mul_iff_left₀ hunits, ← htwo, Binary64.abs_value_mul]
  exact_mod_cast unitsOf_strictMono.monotone hrank

namespace Binary64

/-- A value that is a whole number of ones has as many least units. -/
theorem value_of_units_eq {m : Nat} (h : x.units = m * unitsPerOne) :
    x.value = ((if x.negative then -(m : Int) else m : Int) : ℚ) := by
  have hdiv : (x.units : ℚ) / unitsPerOne = m := by
    rw [h, Nat.cast_mul, mul_div_cancel_right₀ _ unitsPerOne_pos.ne']
  rw [value, hdiv]
  cases x.negative <;> simp

theorem units_eq_of_value (h : x.value = n) : x.units = n.natAbs * unitsPerOne := by
  have hunits := abs_value_mul x
  rw [h, ← Int.cast_abs, Int.abs_eq_natAbs, Int.cast_natCast] at hunits
  exact_mod_cast hunits.symm

/-- The integer of a number is its value. -/
theorem toInt?_eq_some_iff : x.toInt? = some n ↔ x.isFinite = true ∧ x.value = n := by
  have hpos : 0 < unitsPerOne := by exact_mod_cast unitsPerOne_pos
  unfold toInt?
  dsimp only
  constructor
  · intro h
    split at h
    · next hwhole =>
      simp only [Bool.and_eq_true, beq_iff_eq] at hwhole
      have hunits : x.units = x.units / unitsPerOne * unitsPerOne :=
        (Nat.div_mul_cancel (Nat.dvd_of_mod_eq_zero hwhole.2)).symm
      rw [value_of_units_eq hunits, Option.some.inj h]
      exact ⟨hwhole.1, rfl⟩
    · cases h
  · rintro ⟨hfinite, hvalue⟩
    have hunits := units_eq_of_value hvalue
    have hquot : x.units / unitsPerOne = n.natAbs := by
      rw [hunits, Nat.mul_div_cancel _ hpos]
    have hwhole : x.units % unitsPerOne = 0 := by
      rw [hunits, Nat.mul_mod_left]
    rw [value_of_units_eq hunits, Int.cast_inj] at hvalue
    rw [hfinite, hquot, hwhole, hvalue]
    rfl

end Binary64

/-- No integer of at most `2 ^ 53 - 1` is out of the range of 64 bits. -/
theorem toInt_ofInt_of_abs_le (h : |n| ≤ 2 ^ 53 - 1) : (Int64.ofInt n).toInt = n := by
  obtain ⟨hlow, hhigh⟩ := abs_le.mp h
  exact Int64.toInt_ofInt_of_le (by omega) (by omega)

/-- **The numbers that are stored as integers** are those whose value is an integer that is not too
large, and it is this integer that is stored. -/
theorem Datum.ofNumber_eq_int_iff {k : Int64} :
    Datum.ofNumber x = .int k ↔
      x.isFinite = true ∧ x.value = k.toInt ∧ |k.toInt| ≤ 2 ^ 53 - 1 := by
  have hsafe : maxSafeInteger = 2 ^ 53 - 1 := by decide
  unfold Datum.ofNumber
  rw [hsafe]
  constructor
  · intro h
    split at h
    · next n hn =>
      split at h
      · next hrange =>
        obtain ⟨hfinite, hvalue⟩ := Binary64.toInt?_eq_some_iff.mp hn
        have hsmall : |n| ≤ 2 ^ 53 - 1 := abs_le.mpr hrange
        cases h
        rw [toInt_ofInt_of_abs_le hsmall]
        exact ⟨hfinite, hvalue, hsmall⟩
      · cases h
    · cases h
  · rintro ⟨hfinite, hvalue, hrange⟩
    rw [Binary64.toInt?_eq_some_iff.mpr ⟨hfinite, hvalue⟩]
    dsimp only
    rw [if_pos (abs_le.mp hrange), Int64.ofInt_toInt]

/-- Every other number is stored as it is. -/
theorem Datum.ofNumber_eq_double (h : ∀ k, Datum.ofNumber x ≠ .int k) :
    Datum.ofNumber x = .double x := by
  unfold Datum.ofNumber at h ⊢
  split
  · next n hn =>
    rw [hn] at h
    dsimp only at h
    split
    · next hrange => exact absurd (if_pos hrange) (h _)
    · rfl
  · rfl

end integers

end QueryFilter
