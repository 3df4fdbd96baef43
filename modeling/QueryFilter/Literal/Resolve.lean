import QueryFilter.CompileError
import QueryFilter.Literal
import QueryFilter.Text.Blank
import QueryFilter.Text.Offset

/-! # What a literal stands for

A literal is shown to the detectors in turn; the first one that accepts it says what it stands for,
and a literal that none accepts is a string.  Only the range detector can fail: a range that is open
at both ends says nothing. -/

namespace QueryFilter

/-! ### Delimiters and keywords -/

/-- The text between an opening and a closing character. -/
def between? (opening closing : Char) : List Char → Option (List Char)
  | [] => none
  | c :: cs => if c == opening && cs.getLast? == some closing then some cs.dropLast else none

/-- The word between the bounds of a range, with a space on either side. -/
def rangeKeyword : List Char := [' ', 'T', 'O', ' ']

/-- The text in upper case between two spaces, so that a word at an end of the text has a space on
either side too. -/
def padded (text : List Char) : List Char := ' ' :: (text.map Char.toUpper ++ [' '])

/-- The offset of the first word `TO`, in any case, where words are separated by spaces.  The text
starts one byte later in the padded text, and the word one byte later than the space before it. -/
def keywordOffset? (text : List Char) : Option Nat := offsetOf? rangeKeyword (padded text)

/-- The two bounds of a range: what stands before and after its word `TO`, without blanks around. -/
def splitRange (inside : List Char) : Option (List Char × List Char) :=
  let text := trim inside
  match keywordOffset? text with
  | none => none
  | some start =>
    match cutAt? start text, cutAt? (start + 2) text with
    | some (before, _), some (_, after) => some (trim before, trim after)
    | _, _ => none

/-- The rest of a text after a word it starts with. -/
def after? : List Char → List Char → Option (List Char)
  | [], cs => some cs
  | _ :: _, [] => none
  | w :: word, c :: cs => if w == c then after? word cs else none

/-! ### Bounds -/

/-- The bound looks like a date, and it is no number. -/
def isDateBound (text : String) : Bool := looksLikeDate text && (Binary64.ofText? text).isNone

/-- A date as a value. -/
def Scalar.ofDate? (text : String) : Option Scalar := (Moment.ofText? text).map .date

/-- A number as a value. -/
def Scalar.ofNumber? (text : String) : Option Scalar := (Binary64.ofText? text).map .number

/-- The value that a comparison compares with. -/
def Scalar.ofBound? (text : String) : Option Scalar :=
  if isDateBound text then Scalar.ofDate? text else Scalar.ofNumber? text

/-- One end of a range; `dates` says whether the range is one of dates. -/
def Bound.ofText? (dates : Bool) (text : String) : Option Bound :=
  if text = "*" then some .unbounded
  else (if dates then Scalar.ofDate? text else Scalar.ofNumber? text).map .included

/-- Is one of the bounds of a range a date? -/
def isDateRange (lower upper : String) : Bool :=
  [lower, upper].any fun bound => bound != "*" && isDateBound bound

/-! ### Detectors -/

/-- What the detector takes the literal for, if it accepts it. -/
abbrev Detector := String → Except CompileError (Option Resolved)

namespace Detector

/-- A range between brackets.  One that is no range of numbers or of dates is a string. -/
def range : Detector := fun literal =>
  match between? '[' ']' literal.toList with
  | none => .ok none
  | some inside =>
    match splitRange inside with
    | none => .ok (some (.scalar (.string literal)))
    | some (lower, upper) =>
      let lower := String.ofList lower
      let upper := String.ofList upper
      if lower = "" ∧ upper = "" then .ok (some (.ordered (.range .unbounded .unbounded)))
      else if lower = "*" ∧ upper = "*" then .error (.ambiguousRange literal)
      else
        let dates := isDateRange lower upper
        match Bound.ofText? dates lower, Bound.ofText? dates upper with
        | some lower, some upper => .ok (some (.ordered (.range lower upper)))
        | _, _ => .ok (some (.scalar (.string literal)))

/-- The operator that a literal starts with, and the text after it. -/
def comparison? (cs : List Char) : Option (Comparison × List Char) :=
  [Comparison.greaterEqual, .lessEqual, .greater, .less].findSome? fun comparison =>
    (after? comparison.symbol.toList cs).map fun rest => (comparison, rest)

/-- A comparison with a number or a date. -/
def comparison : Detector := fun literal =>
  match comparison? literal.toList with
  | none => .ok none
  | some (comparison, rest) =>
    .ok ((Scalar.ofBound? (String.ofList (trim rest))).map fun value =>
      .ordered (.compared comparison value))

/-- A regular expression between slashes. -/
def regex : Detector := fun literal =>
  match between? '/' '/' literal.toList with
  | none => .ok none
  | some [] => .ok none
  | some pattern => .ok (some (.pattern (.regex (String.ofList pattern))))

/-- A text with a `*` in it. -/
def wildcard : Detector := fun literal =>
  .ok (if literal.toList.contains '*' then some (.pattern (.wildcard literal)) else none)

def date : Detector := fun literal => .ok ((Scalar.ofDate? literal).map .scalar)

def number : Detector := fun literal => .ok ((Scalar.ofNumber? literal).map .scalar)

def boolean : Detector := fun literal =>
  .ok (if literal = "true" then some (.scalar (.boolean true))
    else if literal = "false" then some (.scalar (.boolean false))
    else none)

end Detector

/-- The detectors with the kinds they look for, in the order in which they are tried. -/
def detectors : List (Kind × Detector) :=
  [(.range, Detector.range), (.comparison, Detector.comparison), (.regex, Detector.regex),
   (.wildcard, Detector.wildcard), (.date, Detector.date), (.number, Detector.number),
   (.boolean, Detector.boolean)]

/-- The first of the detectors that accepts the literal, with what it takes it for.  A literal that
none accepts is a string. -/
def detectFirst (literal : String) :
    List (Kind × Detector) → Except CompileError (Kind × Resolved)
  | [] => .ok (.string, .scalar (.string literal))
  | (kind, detector) :: rest =>
    match detector literal with
    | .error e => .error e
    | .ok (some resolved) => .ok (kind, resolved)
    | .ok none => detectFirst literal rest

/-- The detector that decides about the literal, with what it takes it for. -/
def detect (literal : String) : Except CompileError (Kind × Resolved) :=
  detectFirst literal detectors

/-- What the literal stands for. -/
def resolve (literal : String) : Except CompileError Resolved := (detect literal).map (·.2)

end QueryFilter
