import QueryFilter.Number.Decimal

/-! # The shortest decimal of a number

`shortest` is the decimal with the fewest digits that rounds to a given magnitude; among those with
that many digits it is the one nearest to the magnitude, and an exact tie goes as the caller says.

For one digit, two digits and so on, the two neighbours of the magnitude on the decimal grid are
tried.  Seventeen digits are enough for every magnitude; should they ever not be, the exact decimal
of the magnitude is taken. -/

namespace QueryFilter

/-- Where a magnitude halfway between two decimals goes. -/
inductive Tie where
  | toEven
  | up
deriving DecidableEq, Repr

/-- The decimal rounds to the magnitude of this rank. -/
def Decimal.roundsTo (d : Decimal) (rank : Nat) : Bool :=
  !leaves d.numerator d.denominator rank &&
    (rank == 0 || leaves d.numerator d.denominator (rank - 1))

/-- The exponent of the leading decimal digit of a positive number of least units. -/
def leadingExponent (units : Nat) : Int :=
  (digitCount (units * Nat.pow 10 400 / unitsPerOne) : Nat) - 401

/-- The numerator and denominator of `units / 10 ^ exponent`, in ones. -/
def gridRatio (units : Nat) (exponent : Int) : Nat × Nat :=
  (units * Nat.pow 10 (-exponent).toNat, unitsPerOne * Nat.pow 10 exponent.toNat)

/-- The nearer of the two grid points around `num / den`, of which the lower one is `lower`. -/
def nearer (tie : Tie) (num den lower : Nat) : Nat :=
  match compare (2 * num) ((2 * lower + 1) * den), tie with
  | .lt, _ => lower
  | .gt, _ => lower + 1
  | .eq, .up => lower + 1
  | .eq, .toEven => if lower % 2 = 0 then lower else lower + 1

/-- The decimal on the grid `10 ^ exponent` that rounds to the magnitude of this rank: the nearer of
the two neighbours, or else the other one. -/
def gridDecimal? (tie : Tie) (rank : Nat) (exponent : Int) : Option Decimal :=
  let (num, den) := gridRatio (unitsOf rank) exponent
  let lower := num / den
  let neighbours : List Decimal :=
    [⟨false, nearer tie num den lower, exponent⟩, ⟨false, lower, exponent⟩,
      ⟨false, lower + 1, exponent⟩]
  neighbours.find? fun d => d.roundsTo rank

/-- Moves trailing zeros of the digits into the exponent. -/
def stripZeros : Nat → Int → Nat × Int
  | 0, exponent => (0, exponent)
  | n + 1, exponent =>
    if (n + 1) % 10 = 0 then
      stripZeros ((n + 1) / 10) (exponent + 1)
    else (n + 1, exponent)
termination_by n => n
decreasing_by exact Nat.div_lt_self (Nat.succ_pos _) (by decide)

/-- The decimal with the trailing zeros of its digits moved into the exponent. -/
def Decimal.stripped (d : Decimal) : Decimal :=
  let (digits, exponent) := stripZeros d.digits d.exponent
  ⟨d.negative, digits, exponent⟩

/-- The decimal that is equal to so many least units. -/
def exactDecimal (units : Nat) : Decimal := ⟨false, units * Nat.pow 5 1074, -1074⟩

/-- The shortest decimal that rounds to the positive magnitude of this rank. -/
def shortest (tie : Tie) (rank : Nat) : Decimal :=
  let leading := leadingExponent (unitsOf rank)
  let found := (List.range 17).findSome? fun n => gridDecimal? tie rank (leading - (n : Nat))
  (found.getD (exactDecimal (unitsOf rank))).stripped

end QueryFilter
