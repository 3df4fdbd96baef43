/-! # Tokens of a query

A query text is a sequence of tokens with blanks between them.  A quoted token carries the text
between its quotes; bracketed ranges and regular expressions keep their delimiters, and date and
time literals keep a comparison operator in front of them. -/

namespace QueryFilter

/-- The two marks a phrase can be quoted with. -/
inductive Quote where
  | double
  | single
deriving DecidableEq, Repr

/-- The character that opens and closes a phrase. -/
def Quote.mark : Quote → Char
  | .double => '"'
  | .single => '\''

/-- The text between two quotes. -/
def Quote.around (quote : Quote) (text : String) : String :=
  String.singleton quote.mark ++ text ++ String.singleton quote.mark

/-- What a literal with a shape of its own looks like. -/
inductive LiteralForm where
  /-- `[1 TO 5]`, with its brackets. -/
  | bracketed
  /-- `2023-01-15T10:30`, possibly with a comparison operator in front. -/
  | dateTime
  /-- `10:30`, possibly with a comparison operator in front. -/
  | time
  /-- `/ab+c/`, with its slashes. -/
  | regex
deriving DecidableEq, Repr

/-- A token of the query language. -/
inductive Token where
  | and
  | or
  | not
  | openParen
  | closeParen
  | colon
  /-- A phrase, without its quotes. -/
  | quoted (quote : Quote) (text : String)
  /-- A literal with a shape of its own, delimiters included. -/
  | literal (form : LiteralForm) (text : String)
  /-- Any other run of characters. -/
  | word (text : String)
deriving DecidableEq, Repr

/-- The token as it stands in a query. -/
def Token.text : Token → String
  | .and => "AND"
  | .or => "OR"
  | .not => "NOT"
  | .openParen => "("
  | .closeParen => ")"
  | .colon => ":"
  | .quoted quote text => quote.around text
  | .literal _ text => text
  | .word text => text

/-- Three words are operators, every other word stands for itself. -/
def Token.ofWord (text : String) : Token :=
  if text = "AND" then .and
  else if text = "OR" then .or
  else if text = "NOT" then .not
  else .word text

/-- The tokens as they stand in a query, a space between two of them. -/
def Token.fragment (tokens : List Token) : String :=
  " ".intercalate (tokens.map Token.text)

/-- Reading a word as an operator keeps its text. -/
@[simp]
theorem Token.text_ofWord (text : String) : (Token.ofWord text).text = text := by
  unfold Token.ofWord
  split
  · next h => exact h.symm
  split
  · next h => exact h.symm
  split
  · next h => exact h.symm
  rfl

theorem Token.ofWord_cases (text : String) :
    Token.ofWord text ∈ [Token.and, .or, .not] ∨ Token.ofWord text = .word text := by
  unfold Token.ofWord
  split
  · simp
  split
  · simp
  split
  · simp
  · simp

end QueryFilter
