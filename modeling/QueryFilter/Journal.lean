import QueryFilter.Compiler
import QueryFilter.Text.Quoted

/-! # The journal of a compilation

The journal tells step by step how a query text became a filter: how its literals were resolved,
which text searches were joined and which clauses could not be merged.  It ends at the first error.
The journal is computed beside the filter and has no influence on it. -/

namespace QueryFilter

/-- A step of a compilation. -/
inductive Event where
  | parsing (text : String)
  | compiling (query : Query)
  /-- A detector has decided what a literal stands for. -/
  | resolved (literal : String) (kind : Kind)
  /-- The text searches of a conjunction have become one. -/
  | joinedClauses (count : Nat)
  /-- The branches of a disjunction are text searches and have become one. -/
  | joinedBranches (count : Nat)
  /-- A clause of a conjunction could not be merged. -/
  | keptApart (keys : List String)
  | compiled (keys : List String)

namespace Event

/-- How important a step is. -/
inductive Level where
  | debug
  | trace
deriving DecidableEq, Repr

def Level.name : Level → String
  | .debug => "DEBUG"
  | .trace => "TRACE"

def level : Event → Level
  | .parsing _ => .debug
  | .compiling _ => .debug
  | .compiled _ => .debug
  | _ => .trace

/-- The step in words. -/
def message : Event → String
  | .parsing text => "parsing query: " ++ text
  | .compiling query => "compiling query: " ++ query.text
  | .resolved literal kind => "resolved " ++ quoted literal ++ " as " ++ kind.name
  | .joinedClauses count =>
    "joining " ++ Nat.repr count ++ " conjunctive free text clauses"
  | .joinedBranches count => "joining " ++ Nat.repr count ++ " free text branches"
  | .keptApart keys => "keeping clause apart: " ++ quotedList keys
  | .compiled keys => "compiled query to: " ++ quotedList keys

end Event

/-! ### Clauses -/

/-- The steps of joining clauses by AND. -/
def conjunctionEvents (clauses : List Document) : List Event :=
  let count := (searches clauses).length
  let joined := if count = 0 then [] else [Event.joinedClauses count]
  match joinSearches clauses with
  | [_] => joined
  | clauses =>
    joined ++ (gather [] clauses).2.filterMap fun place =>
      place.map fun clause => .keptApart clause.keys

/-- The steps of joining clauses by OR. -/
def disjunctionEvents (clauses : List Document) : List Event :=
  match clauses with
  | [_] => []
  | clauses =>
    if clauses.all fun clause => (searchOf? clause).isSome then [.joinedBranches clauses.length]
    else []

mutual

/-- The steps of negating a document with a single entry. -/
def negateEntryEvents (key : String) : Datum → List Event
  | .array items =>
    if key = Op.or then negateItemsEvents items ++ conjunctionEvents (negateItems items)
    else if key = Op.and then negateItemsEvents items
    else []
  | _ => []

/-- The steps of negating the documents in an array. -/
def negateItemsEvents : List Datum → List Event
  | [] => []
  | .document entries :: items => negateEntriesEvents entries ++ negateItemsEvents items
  | _ :: items => negateItemsEvents items

/-- The steps of negating the entries of a document. -/
def negateEntriesEvents : List (String × Datum) → List Event
  | [] => []
  | (key, value) :: entries => negateEntryEvents key value ++ negateEntriesEvents entries

end

/-- The steps of negating a clause. -/
def negationEvents (clause : Document) : List Event := negateEntriesEvents clause

/-! ### Queries -/

/-- The events that follow a step that has a result, and none after an error. -/
def eventsAfter {α : Type} (result : Except CompileError α) (events : α → List Event) :
    List Event :=
  match result with
  | .ok a => events a
  | .error _ => []

/-- The steps of resolving a value. -/
def Value.events : Value → List Event
  | .quoted _ _ => []
  | value =>
    eventsAfter (detect value.content) fun (kind, _) => [.resolved value.content kind]

namespace Options

variable (options : Options)

/-- The steps of compiling a field with a value. -/
def valueEvents (negated : Bool) (path : Path) (value : Value) : List Event :=
  let negating (clause : Document) : List Event := if negated then negationEvents clause else []
  match options.splitWords? value with
  | some (first, rest) =>
    (Value.words [first]).events ++
      eventsAfter (options.fieldClause path (.words [first])) fun clause =>
        negating clause ++ conjunctionEvents
          [if negated then negate clause else clause, options.textClause (.words rest)]
  | none => value.events ++ eventsAfter (options.fieldClause path value) negating

end Options

mutual

/-- The steps of compiling an operand. -/
def Operand.events (options : Options) : Operand → List Event
  | .field path value => options.valueEvents false path value
  | .text _ => []
  | .not (.field path value) => options.valueEvents true path value
  | .not operand =>
    operand.events options ++ eventsAfter (operand.clause options) negationEvents
  | .group branches =>
    Query.branchEvents options branches ++
      eventsAfter (Query.clauses options branches) disjunctionEvents

/-- The steps of compiling the operands of a branch. -/
def Branch.operandEvents (options : Options) : List Operand → List Event
  | [] => []
  | operand :: operands =>
    operand.events options ++
      match operand.clause options with
      | .ok _ => Branch.operandEvents options operands
      | .error _ => []

/-- The steps of compiling the branches of a query. -/
def Query.branchEvents (options : Options) : List (List Operand) → List Event
  | [] => []
  | branch :: branches =>
    Branch.operandEvents options branch ++
      match Branch.clauses options branch with
      | .ok clauses => conjunctionEvents clauses ++ Query.branchEvents options branches
      | .error _ => []

end

/-- The steps of compiling a query. -/
def Query.events (options : Options) (query : Query) : List Event :=
  .compiling query :: (Query.branchEvents options query ++
    eventsAfter (Query.clauses options query) disjunctionEvents ++
    eventsAfter (query.compile options) fun document => [.compiled document.keys])

/-- The journal of compiling a query text. -/
def Compiler.journal (compiler : Compiler) (text : String) : List Event :=
  .parsing text ::
    match Query.parse compiler.grammar text with
    | .ok query => query.events compiler.options
    | .error _ => []

end QueryFilter
