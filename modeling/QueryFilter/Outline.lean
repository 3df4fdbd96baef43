import QueryFilter.CompileError
import QueryFilter.Query
import QueryFilter.SyntaxError
import QueryFilter.Text.Quoted

/-! # Outlines

An outline shows how a value is built: which case it is, and what its parts are.  It is written on
one line (`Outline.line`) or over several lines, one for each part (`Outline.lines`).  Tokens,
queries and errors have outlines. -/

namespace QueryFilter

/-- How a value is built. -/
inductive Outline where
  /-- A value without parts. -/
  | leaf (text : String)
  /-- A case with its parts. -/
  | node (name : String) (parts : List Outline)
  /-- A case with named parts. -/
  | record (name : String) (fields : List (String × Outline))
  | list (items : List Outline)
deriving Inhabited

namespace Outline

/-- A text in quotes. -/
def text (text : String) : Outline := .leaf (quoted text)

/-- A list of texts in quotes. -/
def texts (texts : List String) : Outline := .list (texts.map Outline.text)

/-! ### On one line -/

mutual

/-- The outline on one line. -/
def line : Outline → String
  | .leaf text => text
  | .node name parts => name ++ "(" ++ ", ".intercalate (lineParts parts) ++ ")"
  | .record name fields => name ++ " \x7b " ++ ", ".intercalate (lineFields fields) ++ " \x7d"
  | .list items => "[" ++ ", ".intercalate (lineParts items) ++ "]"

/-- The parts, each on one line. -/
def lineParts : List Outline → List String
  | [] => []
  | part :: parts => part.line :: lineParts parts

/-- The named parts, each on one line. -/
def lineFields : List (String × Outline) → List String
  | [] => []
  | (name, part) :: fields => (name ++ ": " ++ part.line) :: lineFields fields

end

/-! ### Over several lines -/

/-- The start of a line at the given level. -/
def indent (level : Nat) : String := String.ofList (List.replicate (4 * level) ' ')

/-- The parts between brackets, each on a line that ends in a comma; nothing between the brackets if
there is no part. -/
def block (opening closing : String) (level : Nat) (parts : List String) : String :=
  match parts with
  | [] => opening ++ closing
  | parts =>
    opening ++ "\n" ++ String.join (parts.map fun part => indent (level + 1) ++ part ++ ",\n") ++
      indent level ++ closing

mutual

/-- The outline over several lines, starting at the given level. -/
def linesAt (level : Nat) : Outline → String
  | .leaf text => text
  | .node name parts => block (name ++ "(") ")" level (linesParts (level + 1) parts)
  | .record name fields => block (name ++ " \x7b") "\x7d" level (linesFields (level + 1) fields)
  | .list items => block "[" "]" level (linesParts (level + 1) items)

/-- The parts at the given level. -/
def linesParts (level : Nat) : List Outline → List String
  | [] => []
  | part :: parts => part.linesAt level :: linesParts level parts

/-- The named parts at the given level. -/
def linesFields (level : Nat) : List (String × Outline) → List String
  | [] => []
  | (name, part) :: fields => (name ++ ": " ++ part.linesAt level) :: linesFields level fields

end

/-- The outline over several lines. -/
def lines (outline : Outline) : String := outline.linesAt 0

end Outline

/-! ### Tokens -/

/-- The name of a quoted text. -/
def Quote.name : Quote → String
  | .double => "Quoted"
  | .single => "SingleQuoted"

/-- The name of a token that is a literal of this form. -/
def LiteralForm.tokenName : LiteralForm → String
  | .bracketed => "Bracketed"
  | .dateTime => "DateTime"
  | .time => "Time"
  | .regex => "Regex"

/-- The name of a value that is a literal of this form. -/
def LiteralForm.valueName : LiteralForm → String
  | .bracketed => "Range"
  | .dateTime => "DateTime"
  | .time => "Time"
  | .regex => "Regex"

/-- The name of a token's case. -/
def Token.name : Token → String
  | .and => "And"
  | .or => "Or"
  | .not => "Not"
  | .openParen => "LParen"
  | .closeParen => "RParen"
  | .colon => "Colon"
  | .quoted quote _ => quote.name
  | .literal form _ => form.tokenName
  | .word _ => "Term"

/-- The text that a token carries. -/
def Token.content? : Token → Option String
  | .quoted _ text => some text
  | .literal _ text => some text
  | .word text => some text
  | _ => none

/-- How a token is built. -/
def Token.outline (token : Token) : Outline :=
  match token.content? with
  | some content => .node token.name [.text content]
  | none => .leaf token.name

/-! ### Queries -/

/-- How a value is built. -/
def Value.outline : Value → Outline
  | .words ws => .node "Terms" [.texts ws]
  | .quoted quote text => .node quote.name [.text text]
  | .literal form text => .node form.valueName [.text text]

/-- How a free text is built. -/
def FreeText.outline : FreeText → Outline
  | .words ws => .node "Terms" [.texts ws]
  | .quoted quote text => .node quote.name [.text text]
  | .regex text => .node "Regex" [.text text]

/-- How a path is built. -/
def Path.outline (path : Path) : Outline := .node "Qualifier" [.texts path.segments]

/-- A query from the outlines of its branches. -/
def Outline.ofBranches (branches : List Outline) : Outline :=
  .record "Expression" [("branches", .list branches)]

/-- A branch from the outlines of its operands. -/
def Outline.ofOperands (operands : List Outline) : Outline :=
  .record "AndExpression" [("terms", .list operands)]

mutual

/-- How an operand is built. -/
def Operand.outline : Operand → Outline
  | .field path value =>
    .node "Term" [.node "FieldValue"
      [.record "FieldValue" [("field", path.outline), ("value", value.outline)]]]
  | .text text => .node "Term" [.node "FreeText" [text.outline]]
  | .not operand => .node "Not" [operand.outline]
  | .group branches =>
    .node "Term" [.node "Group" [.ofBranches (Query.branchOutlines branches)]]

/-- How the operands of a branch are built. -/
def Branch.operandOutlines : List Operand → List Outline
  | [] => []
  | operand :: operands => operand.outline :: Branch.operandOutlines operands

/-- How the branches of a query are built. -/
def Query.branchOutlines : List (List Operand) → List Outline
  | [] => []
  | branch :: branches =>
    .ofOperands (Branch.operandOutlines branch) :: Query.branchOutlines branches

end

/-- How a query is built. -/
def Query.outline (query : Query) : Outline := .ofBranches (Query.branchOutlines query)

/-! ### Errors -/

/-- The text at which a syntax error was found. -/
def SyntaxError.fragment? : SyntaxError → Option String
  | .empty => none
  | .unexpectedCharacter text => some text
  | .unterminatedQuote text => some text
  | .unterminatedRange text => some text
  | .unterminatedRegex text => some text
  | .unmatchedOpenParen text => some text
  | .unmatchedCloseParen text => some text
  | .danglingOperator text => some text
  | .emptyField text => some text
  | .invalidField text => some text
  | .emptyValue text => some text
  | .unexpectedToken text => some text
  | .tooDeep _ => none

/-- How a syntax error is built. -/
def SyntaxError.outline (e : SyntaxError) : Outline :=
  match e, e.fragment? with
  | .tooDeep limit, _ => .node e.name [.leaf (Nat.repr limit)]
  | _, some fragment => .node e.name [.text fragment]
  | _, none => .leaf e.name

/-- How a compile error is built. -/
def CompileError.outline (e : CompileError) : Outline :=
  match e with
  | .ambiguousRange literal => .node e.name [.text literal]
  | .invalidIdentifier literal => .node e.name [.text literal]
  | .unsupportedIdentifierQuery field literal =>
    .record e.name [("field", .text field), ("value", .text literal)]

end QueryFilter
