import QueryFilter.Number.Binary64

/-! # Decimals

A decimal is read from a text with an optional sign, digits around an optional point and an optional
exponent.  `Decimal.nearest?` rounds it to the nearest binary64 number.

A decimal rounds to the least rank whose neighbourhood it does not leave at the upper end
(`leaves`): the neighbourhood of a rank ends halfway to the next magnitude, and the midpoint itself
belongs to the even one of the two ranks.  `leastFailing` finds that rank bit by bit. -/

namespace QueryFilter

/-- The number `digits * 10 ^ exponent`, with a sign. -/
structure Decimal where
  negative : Bool
  digits : Nat
  exponent : Int
deriving DecidableEq, Repr

/-! ### Reading -/

/-- The value of a digit. -/
def digitValue (c : Char) : Nat := c.toNat - 48

/-- The number that a run of digits writes, after the digits that made `start`. -/
def digitsValueFrom (start : Nat) (cs : List Char) : Nat :=
  cs.foldl (fun n c => 10 * n + digitValue c) start

/-- The number that a run of digits writes. -/
def digitsValue (cs : List Char) : Nat := digitsValueFrom 0 cs

/-- An optional sign in front of a text: is it a minus, and what follows it. -/
def splitSign : List Char → Bool × List Char
  | '-' :: cs => (true, cs)
  | '+' :: cs => (false, cs)
  | cs => (false, cs)

/-- The exponent at the end of a decimal: nothing, or a mark, an optional sign and digits. -/
def readExponent? : List Char → Option Int
  | [] => some 0
  | c :: cs =>
    if c == 'e' || c == 'E' then
      let (minus, ds) := splitSign cs
      if ds.isEmpty || !ds.all Char.isDigit then none
      else
        let magnitude : Int := (digitsValue ds : Nat)
        some (if minus then -magnitude else magnitude)
    else none

/-- The digits after a point, and what follows them; without a point there are none. -/
def splitFraction : List Char → List Char × List Char
  | '.' :: cs => (cs.takeWhile Char.isDigit, cs.dropWhile Char.isDigit)
  | cs => ([], cs)

/-- Reads a decimal that is all of the text. -/
def Decimal.ofText? (cs : List Char) : Option Decimal :=
  let (minus, unsigned) := splitSign cs
  let whole := unsigned.takeWhile Char.isDigit
  let (fraction, rest) := splitFraction (unsigned.dropWhile Char.isDigit)
  if whole.isEmpty && fraction.isEmpty then none
  else
    (readExponent? rest).map fun exponent =>
      ⟨minus, digitsValue (whole ++ fraction), exponent - (fraction.length : Nat)⟩

/-! ### Rounding -/

/-- The numerator of a decimal's magnitude in least units. -/
def Decimal.numerator (d : Decimal) : Nat := d.digits * Nat.pow 10 d.exponent.toNat * unitsPerOne

/-- The denominator of a decimal's magnitude. -/
def Decimal.denominator (d : Decimal) : Nat := Nat.pow 10 (-d.exponent).toNat

/-- Does `num / den` least units lie above what rounds to a magnitude of this rank or less?  The
midpoint between two magnitudes belongs to the even rank. -/
def leaves (num den rank : Nat) : Bool :=
  let midpoint := (unitsOf rank + unitsOf (rank + 1)) * den
  decide (midpoint < 2 * num) || (decide (midpoint = 2 * num) && rank % 2 == 1)

/-- The least number that fails the test, among the `2 ^ bits` numbers from `start` on; the last of
them if no other fails.  The test has to fail from some number on. -/
def leastFailing (test : Nat → Bool) : Nat → Nat → Nat
  | 0, start => start
  | bits + 1, start =>
    if test (start + 1 <<< bits - 1) then leastFailing test bits (start + 1 <<< bits)
    else leastFailing test bits start

/-- The search finds the number before which the test passes and from which on it fails. -/
theorem leastFailing_eq {test : Nat → Bool} {bits start least : Nat} (hstart : start ≤ least)
    (hend : least < start + 1 <<< bits) (hpass : ∀ k, k < least → test k = true)
    (hfail : ∀ k, least ≤ k → test k = false) : leastFailing test bits start = least := by
  induction bits generalizing start with
  | zero =>
    simp only [Nat.shiftLeft_zero] at hend
    simp only [leastFailing]
    omega
  | succ bits ih =>
    have hpos : 0 < 1 <<< bits := by rw [Nat.one_shiftLeft]; exact Nat.two_pow_pos bits
    rw [Nat.shiftLeft_succ] at hend
    simp only [leastFailing]
    by_cases h : least ≤ start + 1 <<< bits - 1
    · rw [hfail _ h]
      exact ih hstart (by omega)
    · rw [hpass _ (by omega)]
      exact ih (by omega) (by omega)

/-- The rank of the magnitude nearest to `num / den` least units. -/
def nearestRank (num den : Nat) : Nat := leastFailing (leaves num den) 63 0

/-- How many decimal digits the number has. -/
def digitCount (n : Nat) : Nat := (Nat.toDigits 10 n).length

/-- The finite binary64 number nearest to the decimal, if the decimal is in range.  Magnitudes
below `10 ^ (-400)` and from `10 ^ 400` on are far out of range and not computed. -/
def Decimal.nearest? (d : Decimal) : Option Binary64 :=
  let places : Int := (digitCount d.digits : Nat) + d.exponent
  if d.digits = 0 ∨ places < -400 then some ⟨d.negative, 0, Binary64.zero_rank_lt⟩
  else if 400 < places then none
  else
    let rank := nearestRank d.numerator d.denominator
    if h : rank < Binary64.infinityRank then
      some ⟨d.negative, rank, Nat.lt_trans h (by decide)⟩
    else none

/-- Reads a number: a decimal whose nearest binary64 number is finite. -/
def Binary64.ofText? (text : String) : Option Binary64 :=
  (Decimal.ofText? text.toList).bind Decimal.nearest?

end QueryFilter
