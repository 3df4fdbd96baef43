import QueryFilter.Filter.Compile
import QueryFilter.Query.Parser

/-! # Compilers

A compiler holds the grammar and the options under which query texts become filters, for any number
of texts. -/

namespace QueryFilter

/-- Why a text has no filter. -/
inductive Failure where
  /-- The text is no query. -/
  | malformed (error : SyntaxError)
  /-- The query has no filter. -/
  | uncompilable (error : CompileError)
deriving DecidableEq, Repr

namespace Failure

/-- The wording of the failure. -/
def message : Failure → String
  | .malformed e => e.message
  | .uncompilable e => e.message

/-- The name of the cause. -/
def name : Failure → String
  | .malformed e => e.name
  | .uncompilable e => e.name

end Failure

/-- A grammar and options. -/
structure Compiler where
  grammar : Grammar := {}
  options : Options := {}
deriving DecidableEq, Repr, Inhabited

/-- The filter of a query text. -/
def Compiler.compile (compiler : Compiler) (text : String) : Except Failure Document :=
  match Query.parse compiler.grammar text with
  | .error e => .error (.malformed e)
  | .ok query =>
    match query.compile compiler.options with
    | .error e => .error (.uncompilable e)
    | .ok document => .ok document

end QueryFilter
