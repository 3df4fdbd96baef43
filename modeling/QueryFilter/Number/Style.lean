import QueryFilter.Number.Shortest

/-! # Writing numbers

A number is written with the fewest digits that read back as the number.  A `NumberStyle` holds the
decisions that are left: when an exponent is written, whether a whole number shows a point, and
where ties go.  `NumberStyle.query` is the style of numbers in a query, `NumberStyle.document` that
of numbers in a document. -/

namespace QueryFilter

/-- How the digits of a number are laid out. -/
structure NumberStyle where
  /-- The exponents of the leading digit for which no exponent is written. -/
  isPlain : Int → Bool
  /-- A whole number written without an exponent ends in `.0`. -/
  pointZero : Bool
  /-- Where a number halfway between two shortest decimals goes. -/
  tie : Tie

namespace NumberStyle

/-- The digits with the point `places` digits before their end, and without an exponent. -/
def plain (style : NumberStyle) (digits : List Char) (exponent : Int) : List Char :=
  if 0 ≤ exponent then
    digits ++ List.replicate exponent.toNat '0' ++ (if style.pointZero then ['.', '0'] else [])
  else
    let places := (-exponent).toNat
    if places < digits.length then
      digits.take (digits.length - places) ++ '.' :: digits.drop (digits.length - places)
    else '0' :: '.' :: List.replicate (places - digits.length) '0' ++ digits

/-- One digit, the others after a point, and the exponent of the first with its sign. -/
def scientific (digits : List Char) (leading : Int) : List Char :=
  let fraction := digits.drop 1
  digits.take 1 ++ (if fraction.isEmpty then [] else '.' :: fraction) ++
    'e' :: (if leading < 0 then '-' else '+') :: Nat.toDigits 10 leading.natAbs

/-- The magnitude of the given finite rank. -/
def magnitude (style : NumberStyle) (rank : Nat) : List Char :=
  if rank = 0 then style.plain ['0'] 0
  else
    let decimal := shortest style.tie rank
    let digits := Nat.toDigits 10 decimal.digits
    let leading := decimal.exponent + (digits.length : Nat) - 1
    if style.isPlain leading then style.plain digits decimal.exponent
    else scientific digits leading

/-- The finite number, a minus in front if it is negative. -/
def finite (style : NumberStyle) (x : Binary64) : String :=
  String.ofList ((if x.negative then ['-'] else []) ++ style.magnitude x.rank)

/-- Numbers in a query never have an exponent, and whole numbers no point. -/
def query : NumberStyle where
  isPlain _ := true
  pointZero := false
  tie := .up

/-- Numbers in a document have an exponent when the leading digit is more than five places after
the point or more than sixteen places before it; the others show a point. -/
def document : NumberStyle where
  isPlain leading := decide (-5 ≤ leading) && decide (leading ≤ 15)
  pointZero := true
  tie := .toEven

end NumberStyle

/-- The number as a literal of a query. -/
def Binary64.text (x : Binary64) : String :=
  if x.isFinite then NumberStyle.query.finite x
  else if x.isNaN then "NaN"
  else if x.negative then "-inf"
  else "inf"

end QueryFilter
