import QueryFilter.Filter.TextSearch

/-! # Conjunctions and disjunctions of clauses

`conjunction` joins clauses by AND.  Text searches become one search, since a filter may carry only
one; clauses on different fields become one document; what cannot be merged stays apart in an
`$and`.  `disjunction` joins clauses by OR; a disjunction of text searches is one search. -/

namespace QueryFilter

/-! ### Text searches in a list of clauses -/

/-- The texts that the plain text searches among the clauses search for. -/
def searches (clauses : List Document) : List String := clauses.filterMap searchOf?

/-- One search for all the texts. -/
def joinedSearch (clauses : List Document) : Document :=
  textSearch (" ".intercalate (searches clauses))

/-- The clauses with `joined` in the place of the first text search and without the others. -/
def placeSearch (joined : Document) : List Document → List Document
  | [] => []
  | clause :: clauses =>
    if (searchOf? clause).isSome then
      joined :: clauses.filter fun other => (searchOf? other).isNone
    else clause :: placeSearch joined clauses

/-- The clauses with all text searches joined into the first. -/
def joinSearches (clauses : List Document) : List Document :=
  placeSearch (joinedSearch clauses) clauses

/-! ### Merging clauses on fields -/

/-- The clause has entries for fields only, and at least one. -/
def isSimple (clause : Document) : Bool :=
  !clause.isEmpty && clause.keys.all fun key => !isOperatorName key

/-- The clause can be merged into a document: it is simple and shares no field with it. -/
def canMerge (merged clause : Document) : Bool :=
  isSimple clause && clause.keys.all fun key => !merged.hasKey key

/-- Merges what can be merged into `merged`.  Beside the merged document there is a list of places:
`none` where the merged document stands, which is the place of its first clause, and the clauses
that stay apart. -/
def gather (merged : Document) : List Document → Document × List (Option Document)
  | [] => (merged, [])
  | clause :: clauses =>
    if canMerge merged clause then
      let (all, places) := gather (merged ++ clause) clauses
      (all, if merged.isEmpty then none :: places else places)
    else
      let (all, places) := gather merged clauses
      (all, some clause :: places)

/-- The clauses joined by AND. -/
def conjunction (clauses : List Document) : Document :=
  match joinSearches clauses with
  | [clause] => clause
  | clauses =>
    match gather [] clauses with
    | (merged, [none]) => merged
    | (merged, places) =>
      Document.entry Op.and (Datum.ofDocuments (places.map fun place => place.getD merged))

/-- The clauses joined by OR. -/
def disjunction (clauses : List Document) : Document :=
  match clauses with
  | [clause] => clause
  | clauses =>
    if clauses.all fun clause => (searchOf? clause).isSome then joinedSearch clauses
    else Document.entry Op.or (Datum.ofDocuments clauses)

end QueryFilter
