import QueryFilter.Moment

/-! # Date layouts

Besides timestamps, dates are read in a few fixed layouts.  A layout is a list of parts; each part
but the year has two digits, and a year has four digits, or a sign and four to six.  A date without
a zone is taken as UTC.

`Moment.ofText?` tries the formats in turn. -/

namespace QueryFilter

/-- A part of a date layout. -/
inductive LayoutPart where
  | year
  | month
  | day
  | hour
  | minute
  | second
  /-- A character that stands for itself. -/
  | mark (c : Char)
deriving DecidableEq, Repr

namespace LayoutPart

/-- A run of digits, as long as possible but at most `limit` digits. -/
def digitRun : Nat → List Char → List Char
  | 0, _ => []
  | _, [] => []
  | limit + 1, c :: cs => if c.isDigit then c :: digitRun limit cs else []

/-- The four to six digits of a year with a sign. -/
def readLongYear? (cs : List Char) : Option (Nat × List Char) :=
  let digits := digitRun 6 cs
  if 4 ≤ digits.length then some (digitsValue digits, cs.drop digits.length) else none

/-- A year, and the rest of the text. -/
def readYear? : List Char → Option (Int × List Char)
  | '+' :: cs => (readLongYear? cs).map fun (n, rest) => ((n : Int), rest)
  | '-' :: cs => (readLongYear? cs).map fun (n, rest) => (-(n : Int), rest)
  | cs => (takeDigits? 4 cs).map fun (n, rest) => ((n : Int), rest)

/-- Reads the part off the text and sets it in the local time. -/
def read? (part : LayoutPart) (t : LocalTime) (cs : List Char) :
    Option (LocalTime × List Char) :=
  match part with
  | .year => (readYear? cs).map fun (n, rest) => ({ t with year := n }, rest)
  | .month => (takeDigits? 2 cs).map fun (n, rest) => ({ t with month := n }, rest)
  | .day => (takeDigits? 2 cs).map fun (n, rest) => ({ t with day := n }, rest)
  | .hour => (takeDigits? 2 cs).map fun (n, rest) => ({ t with hour := n }, rest)
  | .minute => (takeDigits? 2 cs).map fun (n, rest) => ({ t with minute := n }, rest)
  | .second => (takeDigits? 2 cs).map fun (n, rest) => ({ t with second := n }, rest)
  | .mark c => (takeMark? c cs).map fun rest => (t, rest)

end LayoutPart

/-- A fixed way to write a date. -/
abbrev Layout := List LayoutPart

namespace Layout

/-- Reads the parts in turn; they take all of the text. -/
def readLocal? : Layout → LocalTime → List Char → Option LocalTime
  | [], t, [] => some t
  | [], _, _ :: _ => none
  | part :: parts, t, cs =>
    match part.read? t cs with
    | none => none
    | some (t, rest) => readLocal? parts t rest

/-- Reads a date in this layout. -/
def read? (layout : Layout) (cs : List Char) : Option Moment :=
  match readLocal? layout {} cs with
  | none => none
  | some t => if t.isValid then some (Moment.ofUtc t) else none

/-- `YYYY-MM-DD` -/
def dashedDate : Layout := [.year, .mark '-', .month, .mark '-', .day]

/-- `hh:mm:ss` -/
def clock : Layout := [.hour, .mark ':', .minute, .mark ':', .second]

/-- `MM/DD/YYYY` -/
def monthFirst : Layout := [.month, .mark '/', .day, .mark '/', .year]

/-- `YYYY/MM/DD` -/
def slashedDate : Layout := [.year, .mark '/', .month, .mark '/', .day]

end Layout

/-- A way to write a date, with its name. -/
structure DateFormat where
  name : String
  read? : List Char → Option Moment

/-- The date formats, in the order in which they are tried. -/
def dateFormats : List DateFormat :=
  [⟨"RFC 3339", Timestamp.read?⟩,
   ⟨"YYYY-MM-DD", Layout.dashedDate.read?⟩,
   ⟨"YYYY-MM-DDThh:mm:ssZ",
     Layout.read? (Layout.dashedDate ++ .mark 'T' :: Layout.clock ++ [.mark 'Z'])⟩,
   ⟨"YYYY-MM-DDThh:mm:ss", Layout.read? (Layout.dashedDate ++ .mark 'T' :: Layout.clock)⟩,
   ⟨"YYYY-MM-DD hh:mm:ss", Layout.read? (Layout.dashedDate ++ .mark ' ' :: Layout.clock)⟩,
   ⟨"MM/DD/YYYY", Layout.monthFirst.read?⟩,
   ⟨"YYYY/MM/DD", Layout.slashedDate.read?⟩]

/-- Reads a date in the first format that fits. -/
def Moment.ofText? (text : String) : Option Moment :=
  dateFormats.findSome? fun format => format.read? text.toList

/-- The characters that make a literal look like a date rather than a number. -/
def looksLikeDate (text : String) : Bool :=
  text.toList.any fun c => c == '-' || c == '/' || c == ':' || c == ' ' || c == 'T'

end QueryFilter
