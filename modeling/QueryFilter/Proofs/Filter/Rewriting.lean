import QueryFilter.Proofs.Filter.Grouping

/-! # Options that rewrite the query

Two options do nothing that the query could not say itself.

* Where the words of a value are split, the query could have the first word in the field and the
  others as free text beside it (`Query.splitValues`).
* Where identifiers are renamed, the query could have the stored names (`Query.renameIdentifiers`).

`Query.compile_rewritten` says so: a query has the filter, or the error, that the rewritten query
has without the option.  Both rewritings replace fields and leave the rest of the query as it is,
and `Operand.clause_replaceFields` is the induction that they share. -/

namespace QueryFilter

open Document

/-! ### Replacing fields -/

/-- The operand, with a `NOT` before it or without. -/
def Operand.signed (negated : Bool) (operand : Operand) : Operand :=
  if negated then .not operand else operand

mutual

/-- The operand with its fields replaced.  A `NOT` directly before a field is replaced with it. -/
def Operand.replaceFields (f : Bool → Path → Value → Operand) : Operand → Operand
  | .field path value => f false path value
  | .text text => .text text
  | .not (.field path value) => f true path value
  | .not operand => .not (operand.replaceFields f)
  | .group branches => .group (Query.replaceFields f branches)

/-- The branch with its fields replaced. -/
def Branch.replaceFields (f : Bool → Path → Value → Operand) : List Operand → List Operand
  | [] => []
  | operand :: operands => operand.replaceFields f :: Branch.replaceFields f operands

/-- The query with its fields replaced. -/
def Query.replaceFields (f : Bool → Path → Value → Operand) :
    List (List Operand) → List (List Operand)
  | [] => []
  | branch :: branches => Branch.replaceFields f branch :: Query.replaceFields f branches

end

section replace
variable {f : Bool → Path → Value → Operand} {options options' : Options}

theorem Operand.clause_signed (negated : Bool) (path : Path) (value : Value) :
    ((Operand.field path value).signed negated).clause options =
      options.valueClause negated path value := by
  cases negated with
  | false => rw [Operand.signed, if_neg Bool.false_ne_true, Operand.clause]
  | true => rw [Operand.signed, if_pos rfl, Operand.clause]

theorem Operand.replaceFields_not {operand : Operand}
    (h : ∀ path value, operand ≠ .field path value) :
    (Operand.not operand).replaceFields f = .not (operand.replaceFields f) := by
  cases operand with
  | field path value => exact absurd rfl (h path value)
  | text text => rw [Operand.replaceFields.eq_def]
  | not operand => rw [Operand.replaceFields.eq_def]
  | group branches => rw [Operand.replaceFields.eq_def]

/-- Only a field is replaced by a field, if a negated field is not. -/
theorem Operand.replaceFields_ne_field
    (hf : ∀ path value path' value', f true path value ≠ .field path' value') {operand : Operand}
    (h : ∀ path value, operand ≠ .field path value) (path : Path) (value : Value) :
    operand.replaceFields f ≠ .field path value := by
  cases operand with
  | field path value => exact absurd rfl (h path value)
  | text text => simp [Operand.replaceFields]
  | group branches => simp [Operand.replaceFields]
  | not operand =>
      by_cases hfield : ∃ path value, operand = .field path value
      · obtain ⟨path', value', rfl⟩ := hfield
        rw [Operand.replaceFields]
        exact hf path' value' path value
      · rw [Operand.replaceFields_not fun path value heq => hfield ⟨path, value, heq⟩]
        simp

/-- Under `options'`, what replaces a field has the clause of the field under `options`.  A negated
field is not replaced by a field, which a further `NOT` would negate in another way. -/
structure Options.IsReplacement (options options' : Options) (f : Bool → Path → Value → Operand) :
    Prop where
  clause_eq : ∀ negated path value,
    (f negated path value).clause options' = options.valueClause negated path value
  ne_field : ∀ path value path' value', f true path value ≠ .field path' value'
  textClause_eq : ∀ text, options'.textClause text = options.textClause text

mutual

/-- An operand with its fields replaced has the clause of the operand. -/
theorem Operand.clause_replaceFields (hf : options.IsReplacement options' f) :
    ∀ operand : Operand, (operand.replaceFields f).clause options' = operand.clause options
  | .field path value => by
      rw [Operand.replaceFields, hf.clause_eq, Operand.clause]
  | .text text => by
      rw [Operand.replaceFields, Operand.clause, Operand.clause, hf.textClause_eq]
  | .not operand => by
      by_cases hfield : ∃ path value, operand = .field path value
      · obtain ⟨path, value, rfl⟩ := hfield
        rw [Operand.replaceFields, hf.clause_eq, Operand.clause]
      · have hother : ∀ path value, operand ≠ .field path value :=
          fun path value heq => hfield ⟨path, value, heq⟩
        rw [Operand.replaceFields_not hother, Operand.clause_not hother,
          Operand.clause_not (Operand.replaceFields_ne_field hf.ne_field hother),
          Operand.clause_replaceFields hf operand]
  | .group branches => by
      rw [Operand.replaceFields, Operand.clause, Operand.clause,
        Query.clauses_replaceFields hf branches]

theorem Branch.clauses_replaceFields (hf : options.IsReplacement options' f) :
    ∀ branch : Branch,
      Branch.clauses options' (Branch.replaceFields f branch) = Branch.clauses options branch
  | [] => by
      rw [Branch.replaceFields, Branch.clauses, Branch.clauses]
  | operand :: operands => by
      rw [Branch.replaceFields, Branch.clauses, Branch.clauses,
        Operand.clause_replaceFields hf operand, Branch.clauses_replaceFields hf operands]

theorem Query.clauses_replaceFields (hf : options.IsReplacement options' f) :
    ∀ query : Query,
      Query.clauses options' (Query.replaceFields f query) = Query.clauses options query
  | [] => by
      rw [Query.replaceFields, Query.clauses, Query.clauses]
  | branch :: branches => by
      rw [Query.replaceFields, Query.clauses, Query.clauses,
        Branch.clauses_replaceFields hf branch, Query.clauses_replaceFields hf branches]

end

theorem Query.compile_replaceFields (hf : options.IsReplacement options' f) (query : Query) :
    Query.compile options' (Query.replaceFields f query) = Query.compile options query := by
  rw [Query.compile, Query.compile, Query.clauses_replaceFields hf]

end replace

/-! ### Splitting values -/

/-- A field, negated or not.  Of a value of several words the field keeps the first, and the others
are free text beside it, which is not negated. -/
def Operand.splitValue (negated : Bool) (path : Path) : Value → Operand
  | .words (first :: second :: rest) =>
    .group [[(Operand.field path (.words [first])).signed negated, .text (.words (second :: rest))]]
  | value => (Operand.field path value).signed negated

/-- The query with the first word of each value in the field, and the others beside it. -/
def Query.splitValues (query : Query) : Query := Query.replaceFields Operand.splitValue query

theorem Operand.splitValue_ne_field (path : Path) (value : Value) (path' : Path) (value' : Value) :
    Operand.splitValue true path value ≠ .field path' value' := by
  unfold Operand.splitValue
  split
  · simp
  · simp [Operand.signed]

section split
variable (options : Options)

theorem Options.fieldClause_multiWord (multiWord : MultiWord) (path : Path) (value : Value) :
    Options.fieldClause { options with multiWordValues := multiWord } path value =
      options.fieldClause path value := by
  simp only [Options.fieldClause, Options.clauseOf, Options.fieldName]

theorem Options.textClause_multiWord (multiWord : MultiWord) (text : FreeText) :
    Options.textClause { options with multiWordValues := multiWord } text =
      options.textClause text := by
  unfold Options.textClause
  rfl

/-- A field that is split by the query has the clause of one that is split by the options. -/
theorem Operand.clause_splitValue (negated : Bool) (path : Path) (value : Value) :
    (Operand.splitValue negated path value).clause { options with multiWordValues := .phrase } =
      Options.valueClause { options with multiWordValues := .splitFreeText } negated path
        value := by
  unfold Operand.splitValue
  split
  · next first second rest =>
    have hsplit : Options.splitWords? { options with multiWordValues := .splitFreeText }
        (.words (first :: second :: rest)) = some (first, second :: rest) := rfl
    rw [Operand.clause_group_branch, Branch.clauses, Operand.clause_signed, Branch.clauses,
      Operand.clause, Branch.clauses, Options.valueClause, Options.valueClause, hsplit,
      Options.splitWords?_eq_none rfl]
    simp only [options.fieldClause_multiWord, options.textClause_multiWord]
    cases options.fieldClause path (.words [first]) with
    | error e => rfl
    | ok clause => rfl
  · next hshort =>
    have hwhole : Options.splitWords? { options with multiWordValues := .splitFreeText } value =
        none := by
      unfold Options.splitWords?
      split
      · next first second rest => exact absurd rfl (hshort first second rest)
      · rfl
    rw [Operand.clause_signed, Options.valueClause, Options.valueClause, hwhole,
      Options.splitWords?_eq_none rfl]
    simp only [options.fieldClause_multiWord]

end split

/-! ### Renaming identifiers -/

/-- The segments of a path, with a last segment `id` replaced by `_id`. -/
def renameLast : List String → List String
  | [] => []
  | [segment] => [if segment = "id" then "_id" else segment]
  | segment :: next :: rest => segment :: renameLast (next :: rest)

/-- A field, negated or not, under the stored name of an identifier. -/
def Operand.renameField (negated : Bool) (path : Path) (value : Value) : Operand :=
  (Operand.field ⟨renameLast path.segments⟩ value).signed negated

/-- The query with the stored names of identifiers. -/
def Query.renameIdentifiers (query : Query) : Query :=
  Query.replaceFields Operand.renameField query

theorem renameLast_concat (segments : List String) (last : String) :
    renameLast (segments ++ [last]) = segments ++ [if last = "id" then "_id" else last] := by
  induction segments using renameLast.induct with
  | case1 => rfl
  | case2 segment => rfl
  | case3 segment next rest ih => exact congrArg (segment :: ·) ih

theorem Path.renameIdentifier_eq (path : Path) :
    path.renameIdentifier = ⟨renameLast path.segments⟩ := by
  obtain ⟨segments⟩ := path
  rcases List.eq_nil_or_concat segments with rfl | ⟨init, last, rfl⟩
  · rfl
  · simp only [Path.renameIdentifier, Path.last?, renameLast_concat, List.concat_eq_append,
      List.getLast?_concat, List.dropLast_concat, Option.some.injEq, idAlias, idKey]
    split
    · rfl
    · rfl

theorem Path.isIdentifier_renameIdentifier (path : Path) :
    path.renameIdentifier.isIdentifier = path.isIdentifier := by
  unfold Path.renameIdentifier
  split
  · next hlast =>
    have hkey : Path.last? ⟨path.segments.dropLast ++ [idKey]⟩ = some idKey := by
      simp [Path.last?]
    rw [Path.isIdentifier, Path.isIdentifier, hkey, hlast]
    rfl
  · rfl

section rename
variable (options : Options) (path : Path) (value : Value)

/-- A field that is renamed by the query has the clause of one that is renamed by the options. -/
theorem Options.fieldClause_renameIdentifier :
    Options.fieldClause { options with renameIdentifiers := false } path.renameIdentifier value =
      Options.fieldClause { options with renameIdentifiers := true } path value := by
  have hname : Options.fieldName { options with renameIdentifiers := false } path.renameIdentifier =
      Options.fieldName { options with renameIdentifiers := true } path := rfl
  unfold Options.fieldClause Options.clauseOf
  rw [hname, path.isIdentifier_renameIdentifier]

theorem Options.valueClause_renameIdentifier (negated : Bool) :
    Options.valueClause { options with renameIdentifiers := false } negated path.renameIdentifier
        value =
      Options.valueClause { options with renameIdentifiers := true } negated path value := by
  unfold Options.valueClause
  simp only [options.fieldClause_renameIdentifier path]
  rfl

end rename

/-! ### Queries -/

theorem Options.isReplacement_splitValue (options : Options) :
    Options.IsReplacement { options with multiWordValues := .splitFreeText }
      { options with multiWordValues := .phrase } Operand.splitValue :=
  ⟨Operand.clause_splitValue options, Operand.splitValue_ne_field, fun text => by
    rw [options.textClause_multiWord .phrase, options.textClause_multiWord .splitFreeText]⟩

theorem Options.isReplacement_renameField (options : Options) :
    Options.IsReplacement { options with renameIdentifiers := true }
      { options with renameIdentifiers := false } Operand.renameField := by
  refine ⟨fun negated path value => ?_, by simp [Operand.renameField, Operand.signed], fun _ => rfl⟩
  rw [Operand.renameField, Operand.clause_signed, ← path.renameIdentifier_eq,
    options.valueClause_renameIdentifier]

/-- **Splitting values and renaming identifiers are rewritings of the query.**  With the option, a
query has the filter that the rewritten query has without it: the same document or the same
error. -/
theorem Query.compile_rewritten (options : Options) (query : Query) :
    query.compile { options with multiWordValues := .splitFreeText } =
        query.splitValues.compile { options with multiWordValues := .phrase } ∧
      query.compile { options with renameIdentifiers := true } =
        query.renameIdentifiers.compile { options with renameIdentifiers := false } := by
  constructor
  · exact (Query.compile_replaceFields options.isReplacement_splitValue query).symm
  · exact (Query.compile_replaceFields options.isReplacement_renameField query).symm

/-- Of two negations the inner one goes with the field.  An identifier has its stored name in the
filter, and in an error. -/
theorem Query.compile_rewritten_negated :
    ∃ (options converting : Options) (query split renamed pattern : Query) (document : Document)
      (error : CompileError),
      options = { renameIdentifiers := true, multiWordValues := .splitFreeText } ∧
      converting = { options with convertIdentifiers := true } ∧
      query = [[.not (.not (.field ⟨["user", "id"]⟩ (.words ["John", "Smith"])))]] ∧
      split = [[.not (.group
        [[.not (.field ⟨["user", "id"]⟩ (.words ["John"])), .text (.words ["Smith"])]])]] ∧
      renamed = [[.not (.not (.field ⟨["user", "_id"]⟩ (.words ["John", "Smith"])))]] ∧
      pattern = [[.field ⟨["user", "id"]⟩ (.words ["7*", "x"])]] ∧
      document = entry Op.or
        (Datum.ofDocuments [entry "user._id" (.string "John"), textSearch "-Smith"]) ∧
      error = .unsupportedIdentifierQuery "user._id" "7*" ∧
      query.splitValues = split ∧ query.renameIdentifiers = renamed ∧
      query.compile options = .ok document ∧
      split.compile { options with multiWordValues := .phrase } = .ok document ∧
      renamed.compile { options with renameIdentifiers := false } = .ok document ∧
      pattern.compile converting = .error error ∧
      pattern.splitValues.compile { converting with multiWordValues := .phrase } = .error error ∧
      pattern.renameIdentifiers.compile { converting with renameIdentifiers := false } =
        .error error := by
  refine ⟨_, _, _, _, _, _, _, _, rfl, rfl, rfl, rfl, rfl, rfl, rfl, rfl, rfl, rfl, ?_⟩
  have hquery : Query.compile { renameIdentifiers := true, multiWordValues := .splitFreeText }
      [[.not (.not (.field ⟨["user", "id"]⟩ (.words ["John", "Smith"])))]] =
        .ok (entry Op.or
          (Datum.ofDocuments [entry "user._id" (.string "John"), textSearch "-Smith"])) := by
    cbv
  have hpattern : Query.compile
      { renameIdentifiers := true, convertIdentifiers := true, multiWordValues := .splitFreeText }
      [[.field ⟨["user", "id"]⟩ (.words ["7*", "x"])]] =
        .error (.unsupportedIdentifierQuery "user._id" "7*") := by
    cbv
  obtain ⟨hsplit, hrenamed⟩ := Query.compile_rewritten
    { renameIdentifiers := true, multiWordValues := .splitFreeText }
    [[.not (.not (.field ⟨["user", "id"]⟩ (.words ["John", "Smith"])))]]
  obtain ⟨hsplitPattern, hrenamedPattern⟩ := Query.compile_rewritten
    { renameIdentifiers := true, convertIdentifiers := true, multiWordValues := .splitFreeText }
    [[.field ⟨["user", "id"]⟩ (.words ["7*", "x"])]]
  exact ⟨hquery, hsplit.symm.trans hquery, hrenamed.symm.trans hquery, hpattern,
    hsplitPattern.symm.trans hpattern, hrenamedPattern.symm.trans hpattern⟩

end QueryFilter
