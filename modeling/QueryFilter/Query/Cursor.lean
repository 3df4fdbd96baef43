import QueryFilter.Query.Parser

/-! # Parsing with a cursor

The parser once more, step by step: a walk over the tokens with a cursor that is moved on by one or
two tokens at a time, and with a count of the groups and negations around it.  `Walk.query`,
`Walk.branch` and `Walk.operand` call each other and loop as long as there is more to read.  Nothing
in them says that they ever stop, so a walk is given a number of calls that it may make one inside
the other, where each round of a loop is a call too, and it has no outcome if it needs more.

A walk looks at the token under the cursor before it goes on.  Where it finds what it was never
meant to see, it comes to a `Halt` of its own kind, so that these places can be told from the errors
of a query. -/

namespace QueryFilter

/-- Where a walk stands. -/
structure Cursor where
  /-- How many tokens are in front of the cursor. -/
  position : Nat := 0
  /-- How many groups and negations are around the cursor. -/
  depth : Nat := 0
deriving DecidableEq, Repr

/-- Why a walk was given up. -/
inductive Halt where
  /-- The tokens are no query. -/
  | refused (error : SyntaxError)
  /-- A term was read at the end of the tokens. -/
  | atEnd (error : SyntaxError)
  /-- A term was read where there is a `NOT`. -/
  | atNot (error : SyntaxError)
  /-- A group or negation was left where there is none around the cursor. -/
  | underflow
deriving DecidableEq, Repr

/-- A program that moves the cursor. -/
abbrev Walk := StateT Cursor (ExceptT Halt Option)

namespace Walk

variable (g : Grammar) (tokens : List Token)

/-- What comes of a walk from a cursor: a value with the cursor after it or the reason why there is
none, or nothing at all if the walk needs more calls. -/
def outcome {α : Type} (walk : Walk α) (c : Cursor) : Option (Except Halt (α × Cursor)) :=
  (walk.run c).run

/-- The walk that would need more calls. -/
def unfinished {α : Type} : Walk α := fun _ => ExceptT.mk none

/-! ### Steps -/

/-- The token so many places after the cursor. -/
def peekAt (offset : Nat) : Walk (Option Token) := do
  return tokens[(← get).position + offset]?

/-- The token under the cursor. -/
def peek : Walk (Option Token) := peekAt tokens 0

/-- Takes the token under the cursor, if there is one. -/
def advance : Walk (Option Token) := do
  let token ← peek tokens
  if token.isSome then modify fun c => { c with position := c.position + 1 }
  return token

def refuse {α : Type} (error : SyntaxError) : Walk α := throw (.refused error)

/-- Goes into a group or a negation. -/
def enter : Walk Unit := do
  modify fun c => { c with depth := c.depth + 1 }
  if g.maxDepth < (← get).depth then refuse (.tooDeep g.maxDepth)

/-- Goes out of a group or a negation. -/
def leave : Walk Unit := do
  match (← get).depth with
  | 0 => throw .underflow
  | depth + 1 => modify fun c => { c with depth }

/-- Takes an operator, after which an operand has to follow. -/
def operator (token : Token) : Walk Unit := do
  let _ ← advance tokens
  match ← peek tokens with
  | none | some .closeParen | some .and | some .or => refuse (.danglingOperator token.text)
  | some _ => return

/-! ### Words and values -/

/-- Takes words up to a token that is none or a field name, and appends them to the words so far. -/
def words (word? : Token → Option String) : Nat → List String → Walk (List String)
  | 0, _ => unfinished
  | calls + 1, sofar => do
    match ← peek tokens with
    | none => return sofar
    | some token =>
      match word? token with
      | none => return sofar
      | some word =>
        if (← peekAt tokens 1) = some .colon then return sofar
        else
          let _ ← advance tokens
          words word? calls (sofar ++ [word])

/-- The value of a field. -/
def fieldValue (calls : Nat) (field : String) : Walk Value := do
  match ← peek tokens with
  | none | some .and | some .or | some .not | some .closeParen =>
    refuse (.emptyValue (field ++ ":"))
  | some (.word first) =>
    let _ ← advance tokens
    return .words (← words tokens Token.valueWord? calls [first])
  | some (.quoted quote text) =>
    let _ ← advance tokens
    return .quoted quote text
  | some (.literal form text) =>
    let _ ← advance tokens
    return .literal form text
  | some token => refuse (.unexpectedToken (field ++ ":" ++ token.text))

/-- A free text that starts with a word. -/
def freeWords (calls : Nat) (first : Token) : Walk Operand := do
  match ← words tokens Token.freeWord? calls [] with
  | [] => refuse (.unexpectedToken first.text)
  | taken => return .text (.words taken)

/-! ### Operands, branches and queries -/

mutual

/-- An operand. -/
def operand : Nat → Walk Operand
  | 0 => unfinished
  | calls + 1 => do
    match ← peek tokens with
    | some .not =>
      operator tokens .not
      enter g
      let inner ← operand calls
      leave
      return .not inner
    | _ => term calls

/-- An operand that is no negation. -/
def term : Nat → Walk Operand
  | 0 => unfinished
  | calls + 1 => do
    let start := (← get).position
    match ← peek tokens with
    | some .openParen =>
      let _ ← advance tokens
      if (← peek tokens).isNone then
        refuse (.unmatchedOpenParen (Token.fragment (tokens.drop start)))
      else
        enter g
        let inner ← query calls
        leave
        match ← advance tokens with
        | some .closeParen => return .group inner
        | _ => refuse (.unmatchedOpenParen (Token.fragment (tokens.drop start)))
    | some .colon => refuse (.emptyField (Token.fragment (tokens.drop start)))
    | some (.word text) =>
      if (← peekAt tokens 1) = some .colon then
        let path := Path.ofText text
        if path.isValid then
          modify fun c => { c with position := c.position + 2 }
          return .field path (← fieldValue tokens calls text)
        else refuse (.invalidField text)
      else freeWords tokens calls (.word text)
    | some (.literal .dateTime text) => freeWords tokens calls (.literal .dateTime text)
    | some (.literal .time text) => freeWords tokens calls (.literal .time text)
    | some (.quoted quote text) =>
      let _ ← advance tokens
      return .text (.quoted quote text)
    | some (.literal .regex text) =>
      let _ ← advance tokens
      return .text (.regex text)
    | some .not => throw (.atNot (.unexpectedToken Token.not.text))
    | some token => refuse (.unexpectedToken token.text)
    | none => throw (.atEnd (.danglingOperator (Token.fragment (tokens.drop (start - 1)))))

/-- A conjunction of operands. -/
def branch : Nat → Walk Branch
  | 0 => unfinished
  | calls + 1 => do operands calls [← operand calls]

/-- The operands of a branch after the first ones. -/
def operands : Nat → List Operand → Walk (List Operand)
  | 0, _ => unfinished
  | calls + 1, sofar => do
    match ← peek tokens with
    | some .and =>
      operator tokens .and
      operands calls (sofar ++ [← operand calls])
    | some .or | some .closeParen | none => return sofar
    | some _ =>
      if g.implicitConjunction then operands calls (sofar ++ [← operand calls])
      else return sofar

/-- A disjunction of branches. -/
def query : Nat → Walk Query
  | 0 => unfinished
  | calls + 1 => do branches calls [← branch calls]

/-- The branches of a query after the first ones. -/
def branches : Nat → List Branch → Walk (List Branch)
  | 0, _ => unfinished
  | calls + 1, sofar => do
    match ← peek tokens with
    | some .or =>
      operator tokens .or
      branches calls (sofar ++ [← branch calls])
    | _ => return sofar

end

/-- A query that takes all of the tokens. -/
def whole (calls : Nat) : Walk Query := do
  let read ← query g tokens calls
  match ← peek tokens with
  | none => return read
  | some .closeParen =>
    refuse (.unmatchedCloseParen (Token.fragment (tokens.drop (← get).position)))
  | some token => refuse (.unexpectedToken token.text)

end Walk

end QueryFilter
