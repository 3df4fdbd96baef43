/-! # Syntax errors

Everything that can be wrong with a query text, each cause with the fragment of the query it was
found at.  `message` is the wording shown to the user. -/

namespace QueryFilter

/-- Why a text is not a query. -/
inductive SyntaxError where
  /-- There are no tokens. -/
  | empty
  /-- No token starts with this character. -/
  | unexpectedCharacter (text : String)
  | unterminatedQuote (text : String)
  | unterminatedRange (text : String)
  | unterminatedRegex (text : String)
  | unmatchedOpenParen (fragment : String)
  | unmatchedCloseParen (fragment : String)
  /-- Nothing that could be an operand follows the operator. -/
  | danglingOperator (operator : String)
  /-- A colon without a field name in front of it. -/
  | emptyField (fragment : String)
  /-- A field path with an empty segment or an operator name in it. -/
  | invalidField (field : String)
  | emptyValue (fragment : String)
  | unexpectedToken (token : String)
  /-- More than `limit` groups and negations around each other. -/
  | tooDeep (limit : Nat)
deriving DecidableEq, Repr

namespace SyntaxError

/-- The wording of the error. -/
def message : SyntaxError → String
  | .empty => "Empty query"
  | .unexpectedCharacter text => "Unexpected character: " ++ text
  | .unterminatedQuote text => "Unterminated quoted string: " ++ text
  | .unterminatedRange text => "Unterminated range: " ++ text
  | .unterminatedRegex text => "Unterminated regular expression: " ++ text
  | .unmatchedOpenParen fragment => "Unmatched opening parenthesis: " ++ fragment
  | .unmatchedCloseParen fragment => "Unmatched closing parenthesis: " ++ fragment
  | .danglingOperator operator => "Missing operand after: " ++ operator
  | .emptyField fragment => "Empty field name: " ++ fragment
  | .invalidField field => "Invalid field name: " ++ field
  | .emptyValue fragment => "Empty value: " ++ fragment
  | .unexpectedToken token => "Unexpected token: " ++ token
  | .tooDeep limit => "Nesting exceeds " ++ toString limit ++ " levels"

/-- The name of the cause. -/
def name : SyntaxError → String
  | .empty => "Empty"
  | .unexpectedCharacter _ => "UnexpectedCharacter"
  | .unterminatedQuote _ => "UnterminatedQuote"
  | .unterminatedRange _ => "UnterminatedRange"
  | .unterminatedRegex _ => "UnterminatedRegex"
  | .unmatchedOpenParen _ => "UnmatchedOpenParen"
  | .unmatchedCloseParen _ => "UnmatchedCloseParen"
  | .danglingOperator _ => "DanglingOperator"
  | .emptyField _ => "EmptyField"
  | .invalidField _ => "InvalidField"
  | .emptyValue _ => "EmptyValue"
  | .unexpectedToken _ => "UnexpectedToken"
  | .tooDeep _ => "TooDeep"

end SyntaxError

end QueryFilter
