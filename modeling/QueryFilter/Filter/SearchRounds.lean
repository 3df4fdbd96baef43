import QueryFilter.Filter.TextSearch
import QueryFilter.Text.Offset

/-! # Negating a search in rounds

The negation of a text search once more, round by round.  A round takes the sign of the term that
the rest of the search starts with, finds the offset where the term ends, cuts the rest there and
drops the blanks behind the cut.  Nothing in a round says that the rest can be cut at that offset,
so a round has no outcome if it cannot.  Nothing in the loop says that there is less and less of the
search left, so it is given a number of rounds and has no outcome if it needs more. -/

namespace QueryFilter

/-- Is there a `-` in front, and what comes after it? -/
def takeSign : List Char → Bool × List Char
  | '-' :: body => (true, body)
  | body => (false, body)

/-- The offset where the term at the start of a text ends: after the quote that closes a phrase, in
front of a blank after a word, and at the end of the text if there is neither. -/
def termEnd (body : List Char) : Nat :=
  let size := (String.ofList body).utf8ByteSize
  match body with
  | '"' :: phrase => ((offsetWhere? (· == '"') phrase).map (· + 2)).getD size
  | _ => (offsetWhere? isBlank body).getD size

/-- What a round takes off a search, and what it leaves. -/
structure SearchRound where
  /-- There is a `-` in front of the term. -/
  excluded : Bool
  term : List Char
  rest : List Char
deriving DecidableEq, Repr

/-- The round at the start of a search, if the search can be cut where the term ends. -/
def SearchRound.take? (search : List Char) : Option SearchRound :=
  let (excluded, body) := takeSign search
  (cutAt? (termEnd body) body).map fun (term, after) => ⟨excluded, term, trimStart after⟩

/-- The term with its `-` taken away or put in front.  A `-` without a term is dropped. -/
def SearchRound.negated (round : SearchRound) : List (List Char) :=
  if round.term.isEmpty then [] else [if round.excluded then round.term else '-' :: round.term]

/-- The negated terms of a search after those so far. -/
def negateRounds? : Nat → List (List Char) → List Char → Option (List (List Char))
  | _, sofar, [] => some sofar
  | 0, _, _ :: _ => none
  | rounds + 1, sofar, c :: cs =>
    match SearchRound.take? (c :: cs) with
    | none => none
    | some round => negateRounds? rounds (sofar ++ round.negated) round.rest

/-- The search with every term negated, in so many rounds at the most. -/
def negateSearchIn? (rounds : Nat) (search : String) : Option String :=
  (negateRounds? rounds [] (trimStart search.toList)).map fun terms =>
    " ".intercalate (terms.map String.ofList)

end QueryFilter
