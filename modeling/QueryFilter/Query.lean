import QueryFilter.OperatorName
import QueryFilter.Token

/-! # Queries

A query is a tree of operands, before any of its values is interpreted.

* A `Query` is a disjunction of branches, a `Branch` a conjunction of operands.  So the precedence
  of the operators, `NOT` over `AND` over `OR`, is in the shape of the tree.
* An `Operand` is a value wanted in a field, a free text, the negation of an operand, or a query in
  parentheses.
* A `Path` is a dotted field name, cut at the dots.

`Query.text` writes a query out again, with every operator spelled. -/

namespace QueryFilter

/-! ### Field paths -/

/-- A dotted field name, such as `user.address.city`. -/
structure Path where
  segments : List String
deriving DecidableEq, Repr

namespace Path

/-- Cuts a field name at its dots. -/
def ofText (field : String) : Path := ⟨(field.toList.splitOn '.').map String.ofList⟩

/-- The segments with dots between them. -/
def text (path : Path) : String := ".".intercalate path.segments

/-- The last segment. -/
def last? (path : Path) : Option String := path.segments.getLast?

/-- No segment is empty, and none is the name of an operator. -/
def isValid (path : Path) : Bool :=
  path.segments.all fun segment => segment != "" && !isOperatorName segment

end Path

/-! ### The tree -/

/-- The raw value of a field. -/
inductive Value where
  | words (words : List String)
  | quoted (quote : Quote) (text : String)
  | literal (form : LiteralForm) (text : String)
deriving DecidableEq, Repr

/-- Text that is searched for without a field name. -/
inductive FreeText where
  | words (words : List String)
  | quoted (quote : Quote) (text : String)
  /-- A regular expression, with its slashes. -/
  | regex (text : String)
deriving DecidableEq, Repr

/-- An operand of a conjunction. -/
inductive Operand where
  /-- The field has the value. -/
  | field (path : Path) (value : Value)
  | text (text : FreeText)
  | not (operand : Operand)
  /-- A query in parentheses: a disjunction of conjunctions. -/
  | group (branches : List (List Operand))
deriving Repr, Inhabited

/-- A conjunction of operands. -/
abbrev Branch := List Operand

/-- A disjunction of branches. -/
abbrev Query := List Branch

/-- The query of a single operand. -/
def Query.single (operand : Operand) : Query := [[operand]]

/-! ### Writing a query -/

/-- The value as it stands after the colon. -/
def Value.text : Value → String
  | .words ws => " ".intercalate ws
  | .quoted quote text => quote.around text
  | .literal _ text => text

/-- The text as it stands in a query. -/
def FreeText.text : FreeText → String
  | .words ws => " ".intercalate ws
  | .quoted quote text => quote.around text
  | .regex text => text

mutual

/-- The operand as it stands in a query. -/
def Operand.toText : Operand → String
  | .field path value => path.text ++ ":" ++ value.text
  | .text text => text.text
  | .not operand => "NOT " ++ operand.toText
  | .group branches => "(" ++ " OR ".intercalate (Query.branchTexts branches) ++ ")"

/-- The operands of a branch, each as it stands in a query. -/
def Branch.operandTexts : List Operand → List String
  | [] => []
  | operand :: operands => operand.toText :: Branch.operandTexts operands

/-- The branches of a query, each as it stands in a query. -/
def Query.branchTexts : List (List Operand) → List String
  | [] => []
  | branch :: branches =>
    " AND ".intercalate (Branch.operandTexts branch) :: Query.branchTexts branches

end

/-- The branch as it stands in a query. -/
def Branch.text (branch : Branch) : String := " AND ".intercalate (Branch.operandTexts branch)

/-- The query with every operator spelled. -/
def Query.text (query : Query) : String := " OR ".intercalate (Query.branchTexts query)

theorem Branch.operandTexts_eq_map (branch : Branch) :
    Branch.operandTexts branch = branch.map Operand.toText := by
  induction branch with
  | nil => rfl
  | cons operand operands ih => simp [Branch.operandTexts, ih]

theorem Query.branchTexts_eq_map (query : Query) :
    Query.branchTexts query = query.map Branch.text := by
  induction query with
  | nil => rfl
  | cons branch branches ih => simp [Query.branchTexts, Branch.text, ih]

end QueryFilter
