import QueryFilter.Compiler
import QueryFilter.Outline

/-! # The command line

The program takes a query from its arguments and shows what becomes of it: its tokens, the query as
text and as an outline, and the filter.  It stops at the first error. -/

namespace QueryFilter

/-- What the program writes, and the code it ends with. -/
structure Report where
  output : String
  errors : String := ""
  code : UInt32 := 0
deriving DecidableEq, Repr

namespace CommandLine

/-- What is shown of an error. -/
def failed (output : String) (error : Outline) : Report :=
  { output, errors := "Error: " ++ error.line ++ "\n", code := 1 }

/-- The query on its own. -/
def showInput (query : String) : String := "Input: '" ++ query ++ "'\n"

/-- The tokens under a heading. -/
def showTokens (tokens : List Token) : String :=
  "\nTokens:\n" ++ (Outline.list (tokens.map Token.outline)).line ++ "\n"

/-- The query as text and as an outline, under a heading. -/
def showQuery (query : Query) : String :=
  "\nExpression:\n" ++ query.text ++ "\n\n" ++ query.outline.lines ++ "\n"

/-- The filter under a heading. -/
def showFilter (filter : Document) : String := "\nFilter:\n" ++ filter.toJson.pretty ++ "\n"

/-- Runs the program on its arguments, which are the words of the query. -/
def run (args : List String) : Report :=
  let text := " ".intercalate args
  let output := showInput text
  match tokenize text with
  | .error e => failed output e.outline
  | .ok tokens =>
    let output := output ++ showTokens tokens
    match Query.parse {} text with
    | .error e => failed output e.outline
    | .ok query =>
      let output := output ++ showQuery query
      match query.compile {} with
      | .error e => failed output e.outline
      | .ok filter => { output := output ++ showFilter filter }

end CommandLine

end QueryFilter
