import QueryFilter.Moment.Layout
import QueryFilter.Number.Style

/-! # Typed literals

A literal of a query stands for a single value (`Scalar`), for values on one side of a bound or
between two bounds (`Ordered`), or for the texts that a pattern matches (`Pattern`).  `Resolved` is
any of the three, and `Resolved.text?` writes it as a literal again. -/

namespace QueryFilter

/-! ### Types -/

/-- A single value. -/
inductive Scalar where
  | string (text : String)
  | number (number : Binary64)
  | boolean (value : Bool)
  | date (moment : Moment)
deriving DecidableEq, Repr

/-- One end of a range. -/
inductive Bound where
  | unbounded
  | included (value : Scalar)
  | excluded (value : Scalar)
deriving DecidableEq, Repr

/-- The comparison operators. -/
inductive Comparison where
  | greaterEqual
  | lessEqual
  | greater
  | less
deriving DecidableEq, Repr

/-- Values in an order: on one side of a value, or between two bounds. -/
inductive Ordered where
  | compared (comparison : Comparison) (value : Scalar)
  | range (lower upper : Bound)
deriving DecidableEq, Repr

/-- A pattern for texts. -/
inductive Pattern where
  /-- A regular expression, used as written. -/
  | regex (pattern : String)
  /-- A text in which every `*` stands for any text. -/
  | wildcard (glob : String)
deriving DecidableEq, Repr

/-- What a literal stands for. -/
inductive Resolved where
  | ordered (ordered : Ordered)
  | pattern (pattern : Pattern)
  | scalar (scalar : Scalar)
deriving DecidableEq, Repr

/-- The kinds of literals. -/
inductive Kind where
  | range
  | comparison
  | regex
  | wildcard
  | date
  | number
  | boolean
  | string
deriving DecidableEq, Repr

namespace Kind

def name : Kind → String
  | .range => "Range"
  | .comparison => "Comparison"
  | .regex => "Regex"
  | .wildcard => "Wildcard"
  | .date => "Date"
  | .number => "Number"
  | .boolean => "Boolean"
  | .string => "String"

end Kind

/-- The kind of a resolved literal. -/
def Resolved.kind : Resolved → Kind
  | .ordered (.range _ _) => .range
  | .ordered (.compared _ _) => .comparison
  | .pattern (.regex _) => .regex
  | .pattern (.wildcard _) => .wildcard
  | .scalar (.date _) => .date
  | .scalar (.number _) => .number
  | .scalar (.boolean _) => .boolean
  | .scalar (.string _) => .string

/-! ### Patterns as regular expressions -/

/-- The characters with a meaning of their own in a regular expression. -/
def regexSpecials : List Char :=
  ['\\', '.', '+', '*', '?', '(', ')', '|', '[', ']', '\x7b', '\x7d', '^', '$', '#', '&', '-', '~']

/-- The character as itself in a regular expression. -/
def escapeRegexChar (c : Char) : List Char := if regexSpecials.contains c then ['\\', c] else [c]

/-- The text as itself in a regular expression. -/
def escapeRegex (cs : List Char) : List Char := cs.flatMap escapeRegexChar

/-- A `*` of a glob matches any text, every other character itself. -/
def globChar (c : Char) : List Char := if c == '*' then ['.', '*'] else escapeRegexChar c

/-- The glob as a regular expression.  It is tied to an end of the text unless there is a `*` at
that end. -/
def globRegex (glob : List Char) : List Char :=
  (if glob.head? == some '*' then [] else ['^']) ++ glob.flatMap globChar ++
    (if glob.getLast? == some '*' then [] else ['$'])

namespace Pattern

/-- The regular expression of a pattern. -/
def toRegex : Pattern → String
  | .regex pattern => pattern
  | .wildcard glob => String.ofList (globRegex glob.toList)

/-- Only wildcards ignore case. -/
def ignoresCase : Pattern → Bool
  | .regex _ => false
  | .wildcard _ => true

end Pattern

/-! ### Writing literals -/

/-- The operator in front of a value. -/
def Comparison.symbol : Comparison → String
  | .greaterEqual => ">="
  | .lessEqual => "<="
  | .greater => ">"
  | .less => "<"

/-- The value as a literal.  Only dates can have none: those that have no timestamp. -/
def Scalar.text? : Scalar → Option String
  | .string text => some text
  | .number x => some x.text
  | .boolean true => some "true"
  | .boolean false => some "false"
  | .date moment => Timestamp.write? moment

/-- The end of a range as a literal. -/
def Bound.text? : Bound → Option String
  | .unbounded => some "*"
  | .included value => value.text?
  | .excluded value => value.text?

/-- The ordered values as a literal. -/
def Ordered.text? : Ordered → Option String
  | .compared comparison value => value.text?.map (comparison.symbol ++ ·)
  | .range .unbounded .unbounded => some "[ TO ]"
  | .range lower upper =>
    match lower.text?, upper.text? with
    | some lower, some upper => some ("[" ++ lower ++ " TO " ++ upper ++ "]")
    | _, _ => none

/-- The pattern as a literal. -/
def Pattern.text : Pattern → String
  | .regex pattern => "/" ++ pattern ++ "/"
  | .wildcard glob => glob

/-- The resolved literal as a literal again. -/
def Resolved.text? : Resolved → Option String
  | .ordered values => values.text?
  | .pattern shape => some shape.text
  | .scalar value => value.text?

end QueryFilter
