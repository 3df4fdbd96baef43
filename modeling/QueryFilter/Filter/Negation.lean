import QueryFilter.Filter.Conjunction

/-! # Negation of clauses

The negation of a clause is pushed down to its fields: a disjunction becomes a conjunction and a
conjunction a disjunction, a text search is negated term by term, and the value of a field is
wrapped in `$ne`, or unwrapped. -/

namespace QueryFilter

/-- A value wrapped in `$ne`, or taken out of it. -/
def negateValue : Datum → Datum
  | .document [(key, value)] =>
    if key = Op.ne then value else .document (Document.entry Op.ne (.document [(key, value)]))
  | value => .document (Document.entry Op.ne value)

/-- The negation of an entry whose value is no array. -/
def negateLeaf (key : String) (value : Datum) : Document :=
  match searchOf? (Document.entry key value) with
  | some search => textSearch (negateSearch search)
  | none => Document.entry key (negateValue value)

mutual

/-- The negation of a document with a single entry. -/
def negateEntry (key : String) : Datum → Document
  | .array items =>
    if key = Op.or then conjunction (negateItems items)
    else if key = Op.and then Document.entry Op.or (Datum.ofDocuments (negateItems items))
    else negateLeaf key (.array items)
  | value => negateLeaf key value

/-- The negations of the documents in an array. -/
def negateItems : List Datum → List Document
  | [] => []
  | .document [(key, value)] :: items => negateEntry key value :: negateItems items
  | .document entries :: items =>
    Document.entry Op.or (Datum.ofDocuments (negateEntries entries)) :: negateItems items
  | _ :: items => negateItems items

/-- The negations of the entries of a document. -/
def negateEntries : List (String × Datum) → List Document
  | [] => []
  | (key, value) :: entries => negateEntry key value :: negateEntries entries

end

/-- The negation of a clause.  That of a document with several entries is a disjunction. -/
def negate : Document → Document
  | [(key, value)] => negateEntry key value
  | entries => Document.entry Op.or (Datum.ofDocuments (negateEntries entries))

/-- The documents in an array are negated one by one. -/
theorem negateItems_documents (documents : List Document) :
    negateItems (documents.map .document) = documents.map negate := by
  induction documents with
  | nil => rfl
  | cons document documents ih =>
    match document with
    | [] => simp [negateItems, negate, ih]
    | [(key, value)] => simp [negateItems, negate, ih]
    | e :: f :: rest => simp [negateItems, negate, ih]

end QueryFilter
