import QueryFilter.Proofs.Filter.Output
import QueryFilter.Proofs.Literal.RoundTrip

/-! # Why a query has no filter

Only a value in a field can keep a query from having a filter.  `Options.Fault` says what can be
wrong with one: it is a range that is open at both ends, or it stands in an identifier field and is
no object id.  A query fails with the fault of the leftmost value that has one, whatever stands
around it, and it has a filter if no value has a fault (`Query.compile_faults`).

`resolve_eq_error_iff` and `ObjectId.ofText?_eq_none_iff` say when the two functions that look at a
literal refuse it.  Everything above the fields hands the first error on
(`Operand.errorOf?_clause`). -/

namespace QueryFilter

/-! ### Object ids -/

/-- A hexadecimal digit of either case. -/
def isHexDigit (c : Char) : Bool :=
  c.isDigit || (decide ('a' ≤ c) && decide (c ≤ 'f')) || (decide ('A' ≤ c) && decide (c ≤ 'F'))

/-- Twenty-four hexadecimal digits of either case. -/
def IsIdText (text : String) : Prop :=
  text.toList.length = 24 ∧ ∀ c ∈ text.toList, isHexDigit c = true

theorem isHexDigit_iff {c : Char} :
    isHexDigit c = true ↔ 48 ≤ c.toNat ∧ c.toNat ≤ 57 ∨ 97 ≤ c.toNat ∧ c.toNat ≤ 102 ∨
      65 ≤ c.toNat ∧ c.toNat ≤ 70 := by
  simp [isHexDigit, Char.isDigit, Char.le_def, UInt32.le_iff_toNat_le, or_assoc]

theorem isLowerHexDigit_iff {c : Char} :
    isLowerHexDigit c = true ↔ 48 ≤ c.toNat ∧ c.toNat ≤ 57 ∨ 97 ≤ c.toNat ∧ c.toNat ≤ 102 := by
  simp [isLowerHexDigit, Char.isDigit, Char.le_def, UInt32.le_iff_toNat_le]

theorem toNat_toLower (c : Char) :
    c.toLower.toNat = if 65 ≤ c.toNat ∧ c.toNat ≤ 90 then c.toNat + 32 else c.toNat := by
  have hiff : (c.val ≥ 'A'.val ∧ c.val ≤ 'Z'.val) ↔ 65 ≤ c.toNat ∧ c.toNat ≤ 90 := by
    simp [UInt32.le_iff_toNat_le]
  unfold Char.toLower
  by_cases h : 65 ≤ c.toNat ∧ c.toNat ≤ 90
  · rw [dif_pos (hiff.mpr h), if_pos h]
    have hadd : (c.val + ('a'.val - 'A'.val)).toNat = (c.toNat + 32) % 4294967296 :=
      UInt32.toNat_add ..
    rw [Nat.mod_eq_of_lt (by omega)] at hadd
    exact hadd
  · rw [dif_neg (mt hiff.mp h), if_neg h]

theorem isLowerHexDigit_toLower (c : Char) : isLowerHexDigit c.toLower = isHexDigit c := by
  rw [Bool.eq_iff_iff, isLowerHexDigit_iff, isHexDigit_iff, toNat_toLower]
  split <;> omega

theorem isObjectIdText_toLower {text : String} :
    isObjectIdText (String.ofList (text.toList.map Char.toLower)) = true ↔ IsIdText text := by
  simp [isObjectIdText, IsIdText, isLowerHexDigit_toLower]

theorem ObjectId.ofText?_eq_none_iff {text : String} :
    ObjectId.ofText? text = none ↔ ¬IsIdText text := by
  rw [ObjectId.ofText?, ← isObjectIdText_toLower]
  simp

/-! ### Ranges that are open at both ends -/

/-- The literal is a range with a star at both ends. -/
def IsOpenRange (literal : String) : Prop :=
  ∃ inside, literal.toList = '[' :: (inside ++ [']']) ∧ splitRange inside = some (['*'], ['*'])

namespace Detector

/-- The detector refuses no literal. -/
def Total (detector : Detector) : Prop := ∀ literal, ∃ found, detector literal = .ok found

theorem ofList_eq_star_iff {cs : List Char} : String.ofList cs = "*" ↔ cs = ['*'] := by
  rw [← String.toList_inj]
  simp

theorem range_of_openRange {literal : String} (h : IsOpenRange literal) :
    range literal = .error (.ambiguousRange literal) := by
  obtain ⟨inside, hliteral, hsplit⟩ := h
  have hbetween := between?_delimited '[' ']' inside
  rw [← hliteral] at hbetween
  simp only [range, hbetween, hsplit]
  rfl

theorem openRange_of_range {literal : String} {e : CompileError} (h : range literal = .error e) :
    IsOpenRange literal ∧ e = .ambiguousRange literal := by
  unfold range at h
  split at h
  · cases h
  · next inside hbetween =>
    split at h
    · cases h
    · next lower upper hsplit =>
      dsimp only at h
      split at h
      · cases h
      · split at h
        · next hstars =>
          rw [ofList_eq_star_iff, ofList_eq_star_iff] at hstars
          cases h
          exact ⟨⟨inside, eq_of_between? hbetween, by rw [hsplit, hstars.1, hstars.2]⟩, rfl⟩
        · split at h <;> cases h

theorem comparison_total : Total comparison := by
  intro literal
  unfold comparison
  split
  · exact ⟨_, rfl⟩
  · exact ⟨_, rfl⟩

theorem regex_total : Total regex := by
  intro literal
  unfold regex
  split
  · exact ⟨_, rfl⟩
  · exact ⟨_, rfl⟩
  · exact ⟨_, rfl⟩

end Detector

theorem detectFirst_total {chain : List (Kind × Detector)}
    (h : ∀ detector ∈ chain, detector.2.Total) (literal : String) :
    ∃ found, detectFirst literal chain = .ok found := by
  induction chain with
  | nil => exact ⟨_, rfl⟩
  | cons detector chain ih =>
      obtain ⟨hfirst, hmore⟩ := List.forall_mem_cons.mp h
      obtain ⟨found, hfound⟩ := hfirst literal
      rw [detectFirst, hfound]
      cases found with
      | none => exact ih hmore
      | some resolved => exact ⟨_, rfl⟩

/-- Of the detectors, only that of ranges refuses a literal. -/
theorem total_of_mem_tail : ∀ detector ∈ detectors.tail, detector.2.Total := by
  simp only [detectors, List.tail_cons, List.forall_mem_cons, List.not_mem_nil, false_implies,
    implies_true, and_true]
  exact ⟨Detector.comparison_total, Detector.regex_total, fun _ => ⟨_, rfl⟩, fun _ => ⟨_, rfl⟩,
    fun _ => ⟨_, rfl⟩, fun _ => ⟨_, rfl⟩⟩

/-- A literal is refused if it is a range that is open at both ends, and for no other reason. -/
theorem resolve_eq_error_iff {literal : String} {e : CompileError} :
    resolve literal = .error e ↔ IsOpenRange literal ∧ e = .ambiguousRange literal := by
  have hchain : detect literal = detectFirst literal ((.range, Detector.range) :: detectors.tail) :=
    rfl
  rw [resolve, hchain, detectFirst]
  cases hrange : Detector.range literal with
  | error e' =>
      obtain ⟨hopen, rfl⟩ := Detector.openRange_of_range hrange
      simp [Except.map, hopen, eq_comm]
  | ok found =>
      have hopen : ¬IsOpenRange literal := by
        intro h
        rw [Detector.range_of_openRange h] at hrange
        cases hrange
      obtain ⟨other, hother⟩ := detectFirst_total total_of_mem_tail literal
      cases found with
      | none => simp [hother, Except.map, hopen]
      | some resolved => simp [Except.map, hopen]

/-! ### Faults -/

/-- The value is not quoted, and it is a range that is open at both ends. -/
def Value.IsOpenRange (value : Value) : Prop :=
  (∀ quote text, value ≠ .quoted quote text) ∧ QueryFilter.IsOpenRange value.content

/-- The value stands for a range, a comparison or the matches of a pattern. -/
def Value.IsSelective (value : Value) : Prop :=
  ∃ resolved, value.resolve = .ok resolved ∧
    resolved.kind ∈ [Kind.range, .comparison, .regex, .wildcard]

namespace Options

variable (options : Options)

/-- The value that is wanted in the field: of words that are split, only the first. -/
def ownValue : Value → Value
  | .words (first :: second :: rest) =>
    if options.multiWordValues = .splitFreeText then .words [first]
    else .words (first :: second :: rest)
  | value => value

/-- The values of the field are object ids. -/
def ConvertsAt (path : Path) : Prop :=
  options.convertIdentifiers = true ∧ (path.last? = some idAlias ∨ path.last? = some idKey)

/-- What is wrong with a value that is wanted in a field. -/
inductive Fault (path : Path) (value : Value) : CompileError → Prop
  | openRange (hopen : value.IsOpenRange) : Fault path value (.ambiguousRange value.content)
  | selective (hopen : ¬value.IsOpenRange) (hid : options.ConvertsAt path)
      (hselective : value.IsSelective) :
      Fault path value (.unsupportedIdentifierQuery (options.fieldName path) value.content)
  | noId (hopen : ¬value.IsOpenRange) (hid : options.ConvertsAt path)
      (hselective : ¬value.IsSelective) (hhex : ¬IsIdText value.content) :
      Fault path value (.invalidIdentifier value.content)

/-- The field and its value are bad, with the error that says why. -/
def Bad (field : Path × Value) (e : CompileError) : Prop :=
  options.Fault field.1 (options.ownValue field.2) e

end Options

theorem Value.resolve_eq_error_iff {value : Value} {e : CompileError} :
    value.resolve = .error e ↔ value.IsOpenRange ∧ e = .ambiguousRange value.content := by
  unfold Value.IsOpenRange
  cases value with
  | quoted quote text => simp [Value.resolve]
  | words ws =>
      rw [Value.resolve, QueryFilter.resolve_eq_error_iff]
      · simp
      · simp
  | literal form text =>
      rw [Value.resolve, QueryFilter.resolve_eq_error_iff]
      · simp
      · simp

theorem Value.isSelective_iff {value : Value} {resolved : Resolved}
    (h : value.resolve = .ok resolved) : value.IsSelective ↔ resolved.kind.isPlain = false := by
  have hselective : value.IsSelective ↔
      resolved.kind ∈ [Kind.range, .comparison, .regex, .wildcard] := by
    simp [Value.IsSelective, h]
  rw [hselective]
  cases resolved.kind <;> decide

section fields
variable {options : Options} {path : Path} {value : Value}

theorem Options.convertsAt_iff :
    options.ConvertsAt path ↔ (options.convertIdentifiers && path.isIdentifier) = true := by
  simp [Options.ConvertsAt, Path.isIdentifier, or_comm]

/-- The clause of a field fails with the fault of its value. -/
theorem Options.fieldClause_eq_error_iff {e : CompileError} :
    options.fieldClause path value = .error e ↔ options.Fault path value e := by
  unfold Options.fieldClause
  cases hresolve : value.resolve with
  | error e' =>
      obtain ⟨hopen, rfl⟩ := Value.resolve_eq_error_iff.mp hresolve
      constructor
      · intro h
        cases h
        exact .openRange hopen
      · intro h
        cases h with
        | openRange _ => rfl
        | selective hclosed => exact absurd hopen hclosed
        | noId hclosed => exact absurd hopen hclosed
  | ok resolved =>
      -- Only a field of object ids can still refuse the value.
      have hopen : ¬value.IsOpenRange := by
        intro h
        rw [Value.resolve_eq_error_iff.mpr ⟨h, rfl⟩] at hresolve
        cases hresolve
      have hselective := Value.isSelective_iff hresolve
      have hconverts : options.ConvertsAt path ↔ _ := Options.convertsAt_iff
      have hhex : ObjectId.ofText? value.content = none ↔ _ := ObjectId.ofText?_eq_none_iff
      dsimp only [Options.clauseOf]
      constructor
      · intro h
        split at h
        · next hid =>
          split at h
          · next hplain =>
            split at h
            · cases h
            · next hnone =>
              cases h
              exact .noId hopen (hconverts.mpr hid) (by simp [hselective, hplain]) (hhex.mp hnone)
          · next hplain =>
            cases h
            exact .selective hopen (hconverts.mpr hid) (hselective.mpr (by simpa using hplain))
        · cases h
      · intro h
        cases h with
        | openRange h => exact absurd h hopen
        | selective _ hid hs => rw [if_pos (hconverts.mp hid), if_neg (by simp [hselective.mp hs])]
        | noId _ hid hs hid' =>
            rw [if_pos (hconverts.mp hid), if_pos (by simpa [hselective] using hs), hhex.mpr hid']

end fields

/-! ### The first error -/

/-- The error of a result, if it is one. -/
def errorOf? {ε α : Type} : Except ε α → Option ε
  | .error e => some e
  | .ok _ => none

theorem errorOf?_eq_some_iff {ε α : Type} {r : Except ε α} {e : ε} :
    errorOf? r = some e ↔ r = .error e := by
  cases r <;> simp [errorOf?]

theorem errorOf?_eq_none_iff {ε α : Type} {r : Except ε α} :
    errorOf? r = none ↔ ∃ a, r = .ok a := by
  cases r <;> simp [errorOf?]

@[simp]
theorem errorOf?_map {ε α β : Type} (r : Except ε α) (f : α → β) :
    errorOf? (r.map f) = errorOf? r := by
  cases r <;> rfl

mutual

/-- The fields of the operand with their values, from left to right. -/
def Operand.fields : Operand → List (Path × Value)
  | .field path value => [(path, value)]
  | .text _ => []
  | .not operand => operand.fields
  | .group branches => Query.fields branches

/-- The fields of the branch with their values, from left to right. -/
def Branch.fields : Branch → List (Path × Value)
  | [] => []
  | operand :: operands => operand.fields ++ Branch.fields operands

/-- The fields of the query with their values, from left to right. -/
def Query.fields : Query → List (Path × Value)
  | [] => []
  | branch :: branches => Branch.fields branch ++ Query.fields branches

end

section errors
variable (options : Options)

/-- The error of a field with its value. -/
def Options.fieldError? (field : Path × Value) : Option CompileError :=
  errorOf? (options.fieldClause field.1 (options.ownValue field.2))

theorem Options.errorOf?_valueClause (negated : Bool) (path : Path) (value : Value) :
    errorOf? (options.valueClause negated path value) = options.fieldError? (path, value) := by
  unfold Options.valueClause Options.fieldError? Options.ownValue Options.splitWords?
  cases value with
  | quoted quote text => simp
  | literal form text => simp
  | words ws =>
      match ws with
      | [] => simp
      | [first] => simp
      | first :: second :: rest =>
          by_cases hsplit : options.multiWordValues = .splitFreeText
          · simp [hsplit]
          · simp [hsplit]

/-- A negated operand fails as the operand does, although a field is negated on its own way. -/
theorem Operand.errorOf?_clause_not (operand : Operand) :
    errorOf? ((Operand.not operand).clause options) = errorOf? (operand.clause options) := by
  by_cases hfield : ∃ path value, operand = .field path value
  · obtain ⟨path, value, rfl⟩ := hfield
    rw [Operand.clause, Operand.clause, options.errorOf?_valueClause, options.errorOf?_valueClause]
  · rw [Operand.clause_not fun path value heq => hfield ⟨path, value, heq⟩, errorOf?_map]

theorem Branch.errorOf?_clauses_cons (operand : Operand) (operands : Branch) :
    errorOf? (Branch.clauses options (operand :: operands)) =
      (errorOf? (operand.clause options)).or (errorOf? (Branch.clauses options operands)) := by
  rw [Branch.clauses]
  cases operand.clause options with
  | error e => rfl
  | ok clause => exact errorOf?_map _ _

theorem Query.errorOf?_clauses_cons (branch : Branch) (branches : Query) :
    errorOf? (Query.clauses options (branch :: branches)) =
      (errorOf? (Branch.clauses options branch)).or
        (errorOf? (Query.clauses options branches)) := by
  rw [Query.clauses]
  cases Branch.clauses options branch with
  | error e => rfl
  | ok clauses => exact errorOf?_map _ _

mutual

/-- The error of an operand is the first of the errors of its fields: negations and groups hand it
on, and free texts have none. -/
theorem Operand.errorOf?_clause : ∀ operand : Operand,
    errorOf? (operand.clause options) = operand.fields.findSome? options.fieldError?
  | .field path value => by
      rw [Operand.clause, Operand.fields, options.errorOf?_valueClause]
      simp
  | .text text => by
      rw [Operand.clause, Operand.fields]
      rfl
  | .not operand => by
      rw [Operand.errorOf?_clause_not, Operand.fields, Operand.errorOf?_clause operand]
  | .group branches => by
      rw [Operand.clause, errorOf?_map, Operand.fields, Query.errorOf?_clauses branches]

theorem Branch.errorOf?_clauses : ∀ branch : Branch,
    errorOf? (Branch.clauses options branch) =
      (Branch.fields branch).findSome? options.fieldError?
  | [] => by
      rw [Branch.clauses, Branch.fields]
      rfl
  | operand :: operands => by
      rw [Branch.errorOf?_clauses_cons, Branch.fields, List.findSome?_append,
        Operand.errorOf?_clause operand, Branch.errorOf?_clauses operands]

theorem Query.errorOf?_clauses : ∀ query : Query,
    errorOf? (Query.clauses options query) = (Query.fields query).findSome? options.fieldError?
  | [] => by
      rw [Query.clauses, Query.fields]
      rfl
  | branch :: branches => by
      rw [Query.errorOf?_clauses_cons, Query.fields, List.findSome?_append,
        Branch.errorOf?_clauses branch, Query.errorOf?_clauses branches]

end

theorem Options.fieldError?_eq_some_iff {field : Path × Value} {e : CompileError} :
    options.fieldError? field = some e ↔ options.Bad field e :=
  errorOf?_eq_some_iff.trans Options.fieldClause_eq_error_iff

theorem Options.fieldError?_eq_none_iff {field : Path × Value} :
    options.fieldError? field = none ↔ ∀ e, ¬options.Bad field e := by
  simp only [← Options.fieldError?_eq_some_iff, Option.eq_none_iff_forall_ne_some, ne_eq]

/-- **A query fails with the fault of its leftmost bad field**, and it has a filter exactly if none
of its fields is bad. -/
theorem Query.compile_faults (query : Query) :
    (∀ e, query.compile options = .error e ↔
      ∃ before field after, query.fields = before ++ field :: after ∧
        (∀ earlier ∈ before, ∀ e', ¬options.Bad earlier e') ∧ options.Bad field e) ∧
    ((∃ document, query.compile options = .ok document) ↔
      ∀ field ∈ query.fields, ∀ e, ¬options.Bad field e) := by
  have hfirst : errorOf? (query.compile options) = query.fields.findSome? options.fieldError? := by
    rw [Query.compile, errorOf?_map, Query.errorOf?_clauses]
  constructor
  · intro e
    rw [← errorOf?_eq_some_iff, hfirst, List.findSome?_eq_some_iff]
    simp only [options.fieldError?_eq_some_iff, options.fieldError?_eq_none_iff, and_comm]
  · rw [← errorOf?_eq_none_iff, hfirst, List.findSome?_eq_none_iff]
    simp only [options.fieldError?_eq_none_iff]

/-- The identifier comes first, so nothing is said about the range. -/
example : Query.compile { convertIdentifiers := true }
    [[.text (.words ["x"]), .not (.group [[.field ⟨["user", "id"]⟩ (.quoted .double "7")],
      [.field ⟨["a"]⟩ (.literal .bracketed "[* TO *]")]])]] = .error (.invalidIdentifier "7") := by
  rfl

end errors

end QueryFilter
