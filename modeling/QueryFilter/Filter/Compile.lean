import QueryFilter.Filter.Negation
import QueryFilter.Literal.Resolve
import QueryFilter.Query

/-! # From queries to filters

`compile` turns a query into a filter document.  The value of a field is resolved and becomes an
entry of the document; free text becomes a text search, or a match on the default fields if there
are any.  Conjunctions, disjunctions and negations of operands are those of their clauses. -/

namespace QueryFilter

/-! ### Options -/

/-- What a field value of several words means. -/
inductive MultiWord where
  /-- The field has the words as its value. -/
  | phrase
  /-- The field has the first word as its value, the others are free text. -/
  | splitFreeText
deriving DecidableEq, Repr, Inhabited

/-- How queries are compiled. -/
structure Options where
  /-- The fields that free text is looked for in; without any, a text search is used. -/
  defaultFields : List String := []
  /-- A last path segment `id` is written `_id`. -/
  renameIdentifiers : Bool := false
  /-- The values of identifier fields are object ids. -/
  convertIdentifiers : Bool := false
  multiWordValues : MultiWord := .phrase
deriving DecidableEq, Repr, Inhabited

/-! ### Field names -/

/-- The name of the identifier field of a stored document. -/
def idKey : String := "_id"

/-- The name of the identifier field in queries. -/
def idAlias : String := "id"

namespace Path

/-- The last segment names an identifier. -/
def isIdentifier (path : Path) : Bool :=
  path.last? == some idKey || path.last? == some idAlias

/-- The path with a last segment `id` written `_id`. -/
def renameIdentifier (path : Path) : Path :=
  if path.last? = some idAlias then ⟨path.segments.dropLast ++ [idKey]⟩ else path

end Path

/-- The key under which a field stands in the filter. -/
def Options.fieldName (options : Options) (path : Path) : String :=
  if options.renameIdentifiers then path.renameIdentifier.text else path.text

/-! ### Values -/

/-- A scalar as a value of a document. -/
def Scalar.toDatum : Scalar → Datum
  | .string text => .string text
  | .number x => Datum.ofNumber x
  | .boolean b => .bool b
  | .date moment => Datum.ofMoment moment

/-- The operator of a comparison. -/
def Comparison.operator : Comparison → String
  | .greaterEqual => Op.gte
  | .lessEqual => Op.lte
  | .greater => Op.gt
  | .less => Op.lt

/-- One end of a range, with the operators for an end that belongs to it and one that does not. -/
def Bound.condition (inclusive exclusive : String) : Bound → Document
  | .unbounded => []
  | .included value => Document.entry inclusive value.toDatum
  | .excluded value => Document.entry exclusive value.toDatum

/-- The condition of ordered values.  A range without bounds asks that there is a value. -/
def Ordered.condition : Ordered → Document
  | .compared comparison value => Document.entry comparison.operator value.toDatum
  | .range .unbounded .unbounded => Document.entry Op.present (.bool true)
  | .range lower upper => lower.condition Op.gte Op.gt ++ upper.condition Op.lte Op.lt

/-- The condition that a text matches a regular expression. -/
def regexCondition (pattern : String) (ignoreCase : Bool) : Document :=
  (Op.regex, .string pattern) :: if ignoreCase then [(Op.options, .string "i")] else []

/-- The condition of a pattern. -/
def Pattern.condition (pattern : Pattern) : Document :=
  regexCondition pattern.toRegex pattern.ignoresCase

/-- What a resolved literal asks of a field. -/
def Resolved.toDatum : Resolved → Datum
  | .scalar value => value.toDatum
  | .pattern shape => .document shape.condition
  | .ordered values => .document values.condition

/-- The literal of a value: a phrase without its quotes, words with a space between them. -/
def Value.content : Value → String
  | .words ws => " ".intercalate ws
  | .quoted _ text => text
  | .literal _ text => text

/-- What the value stands for.  A phrase is a string, whatever it looks like. -/
def Value.resolve : Value → Except CompileError Resolved
  | .quoted _ text => .ok (.scalar (.string text))
  | value => QueryFilter.resolve value.content

/-- The kind can be the literal of an object id. -/
def Kind.isPlain : Kind → Bool
  | .range => false
  | .comparison => false
  | .regex => false
  | .wildcard => false
  | _ => true

/-! ### Free text -/

/-- A regular expression without its slashes. -/
def stripSlashes (text : String) : String :=
  match between? '/' '/' text.toList with
  | some inside => String.ofList inside
  | none => text

namespace FreeText

/-- The words of a text search for the text. -/
def search : FreeText → String
  | .words ws => " ".intercalate ws
  | .quoted _ text => Quote.double.around text
  | .regex text => stripSlashes text

/-- The condition that a field contains the text, in any case. -/
def contains (literal : String) : Document :=
  regexCondition (String.ofList (escapeRegex literal.toList)) true

/-- What the text asks of a default field: words with a `*` are a wildcard, a regular expression is
used as written, and anything else is contained in the field. -/
def condition : FreeText → Document
  | .words ws =>
    let literal := " ".intercalate ws
    if literal.toList.contains '*' then (Pattern.wildcard literal).condition
    else contains literal
  | .quoted _ text => contains text
  | .regex text =>
    match between? '/' '/' text.toList with
    | some (c :: cs) => (Pattern.regex (String.ofList (c :: cs))).condition
    | _ => contains (stripSlashes text)

end FreeText

/-! ### Clauses -/

namespace Options

variable (options : Options)

/-- The clause of a field, from what its literal stands for. -/
def clauseOf (path : Path) (literal : String) (resolved : Resolved) :
    Except CompileError Document :=
  let name := options.fieldName path
  if options.convertIdentifiers && path.isIdentifier then
    if resolved.kind.isPlain then
      match ObjectId.ofText? literal with
      | some id => .ok (Document.entry name (.objectId id))
      | none => .error (.invalidIdentifier literal)
    else .error (.unsupportedIdentifierQuery name literal)
  else .ok (Document.entry name resolved.toDatum)

/-- The clause of a field with a value. -/
def fieldClause (path : Path) (value : Value) : Except CompileError Document :=
  match value.resolve with
  | .error e => .error e
  | .ok resolved => options.clauseOf path value.content resolved

/-- The clause of a free text: a text search, or a match on one of the default fields. -/
def textClause (text : FreeText) : Document :=
  match options.defaultFields with
  | [] => textSearch text.search
  | [field] => Document.entry field (.document text.condition)
  | fields =>
    Document.entry Op.or (Datum.ofDocuments (fields.map fun field =>
      Document.entry field (.document text.condition)))

/-- The first word of a value and the others, if the others are free text. -/
def splitWords? : Value → Option (String × List String)
  | .words (first :: second :: rest) =>
    if options.multiWordValues = .splitFreeText then some (first, second :: rest) else none
  | _ => none

/-- The clause of a field with a value, negated or not.  Words split off as free text are not
negated with the field. -/
def valueClause (negated : Bool) (path : Path) (value : Value) : Except CompileError Document :=
  let negateIf (clause : Document) : Document := if negated then negate clause else clause
  match options.splitWords? value with
  | some (first, rest) =>
    (options.fieldClause path (.words [first])).map fun clause =>
      conjunction [negateIf clause, options.textClause (.words rest)]
  | none => (options.fieldClause path value).map negateIf

end Options

mutual

/-- The clause of an operand. -/
def Operand.clause (options : Options) : Operand → Except CompileError Document
  | .field path value => options.valueClause false path value
  | .text text => .ok (options.textClause text)
  | .not (.field path value) => options.valueClause true path value
  | .not operand => (operand.clause options).map negate
  | .group branches => (Query.clauses options branches).map disjunction

/-- The clauses of the operands of a branch, up to the first error. -/
def Branch.clauses (options : Options) : List Operand → Except CompileError (List Document)
  | [] => .ok []
  | operand :: operands =>
    match operand.clause options with
    | .error e => .error e
    | .ok clause => (Branch.clauses options operands).map (clause :: ·)

/-- The clauses of the branches of a query, up to the first error. -/
def Query.clauses (options : Options) : List (List Operand) → Except CompileError (List Document)
  | [] => .ok []
  | branch :: branches =>
    match (Branch.clauses options branch).map conjunction with
    | .error e => .error e
    | .ok clause => (Query.clauses options branches).map (clause :: ·)

end

/-- The filter of a query. -/
def Query.compile (options : Options) (query : Query) : Except CompileError Document :=
  (Query.clauses options query).map disjunction

end QueryFilter
