/-! # Compile errors

Why a query that is well formed has no filter.  `message` is the wording shown to the user. -/

namespace QueryFilter

/-- Why a query has no filter. -/
inductive CompileError where
  /-- A range that is open at both ends. -/
  | ambiguousRange (literal : String)
  /-- The value of an identifier field is no object id. -/
  | invalidIdentifier (literal : String)
  /-- An identifier field can only be compared for equality. -/
  | unsupportedIdentifierQuery (field literal : String)
deriving DecidableEq, Repr

namespace CompileError

/-- The wording of the error. -/
def message : CompileError → String
  | .ambiguousRange literal => "Range without any bound: " ++ literal
  | .invalidIdentifier literal => "Invalid identifier: " ++ literal
  | .unsupportedIdentifierQuery field literal =>
    "Unsupported query on identifier field '" ++ field ++ "': " ++ literal

/-- The name of the cause. -/
def name : CompileError → String
  | .ambiguousRange _ => "AmbiguousRange"
  | .invalidIdentifier _ => "InvalidIdentifier"
  | .unsupportedIdentifierQuery _ _ => "UnsupportedIdentifierQuery"

end CompileError

end QueryFilter
