/-! # Binary64 numbers

A 64-bit floating point number is a sign and a magnitude.  The magnitudes are numbered in ascending
order: zero has rank 0, the least positive number rank 1, and the ranks from `infinityRank` on are
infinity and the values that are no numbers.  So the rank is the biased exponent followed by the
fraction, and it orders the finite magnitudes.

Every finite magnitude is a whole number of least units, `2 ^ (-1074)`; `unitsOf` counts them.  All
comparisons with other numbers are made on these counts, in natural numbers. -/

namespace QueryFilter

/-- A 64-bit floating point number. -/
structure Binary64 where
  negative : Bool
  /-- The place of the magnitude among all magnitudes. -/
  rank : Nat
  rank_lt : rank < 1 <<< 63
deriving DecidableEq, Repr

/-- How many least units the magnitude of the given rank has. -/
def unitsOf (rank : Nat) : Nat :=
  if rank < 1 <<< 52 then rank
  else (1 <<< 52 + rank % 1 <<< 52) <<< (rank / 1 <<< 52 - 1)

/-- The least units that make one. -/
def unitsPerOne : Nat := 1 <<< 1074

namespace Binary64

/-- Zero has a rank. -/
theorem zero_rank_lt : 0 < 1 <<< 63 := by decide

instance : Inhabited Binary64 := ⟨⟨false, 0, zero_rank_lt⟩⟩

/-- The rank of infinity. -/
def infinityRank : Nat := 2047 <<< 52

/-- The number is finite. -/
def isFinite (x : Binary64) : Bool := decide (x.rank < infinityRank)

/-- The value is no number at all. -/
def isNaN (x : Binary64) : Bool := decide (infinityRank < x.rank)

/-- The magnitude in least units. -/
def units (x : Binary64) : Nat := unitsOf x.rank

/-- The number with the given 64 bits. -/
def ofBits (bits : Nat) : Binary64 :=
  ⟨decide (bits / 1 <<< 63 % 2 = 1), bits % 1 <<< 63, Nat.mod_lt _ (by decide)⟩

/-- The 64 bits of the number. -/
def toBits (x : Binary64) : Nat := (if x.negative then 1 <<< 63 else 0) + x.rank

/-- The integer that the number is equal to, if it is finite and there is one. -/
def toInt? (x : Binary64) : Option Int :=
  if x.isFinite && x.units % unitsPerOne == 0 then
    let magnitude : Int := (x.units / unitsPerOne : Nat)
    some (if x.negative then -magnitude else magnitude)
  else none

/-- The bits of a number give it back. -/
theorem ofBits_toBits (x : Binary64) : ofBits x.toBits = x := by
  obtain ⟨negative, rank, h⟩ := x
  cases negative
  · simp only [ofBits, toBits, Binary64.mk.injEq]
    constructor <;> simp <;> omega
  · simp only [ofBits, toBits, Binary64.mk.injEq, decide_eq_true_eq]
    constructor <;> simp <;> omega

end Binary64

end QueryFilter
