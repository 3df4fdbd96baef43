import QueryFilter.Filter.Compile
import QueryFilter.Proofs.Literal.Detection

/-! # Conditions on a field

`Datum.IsLeaf` is the grammar of what a filter can ask of a field: a value of its own, a comparison,
a range, a regular expression, or that there is a value.  Whatever literal a query has, it resolves
to one of these (`resolve_isLeaf`).  So are the conditions that a free text puts on a default field
(`FreeText.condition_isLeaf`). -/

namespace QueryFilter

/-! ### The grammar -/

namespace Datum

/-- A number, as an integer or not. -/
inductive IsNumber : Datum → Prop
  | int (n : Int64) : IsNumber (.int n)
  | double (x : Binary64) : IsNumber (.double x)

inductive IsDate : Datum → Prop
  | date (millis : Int64) : IsDate (.date millis)

/-- What can be asked of a field, its negation apart. -/
inductive IsLeaf : Datum → Prop
  | string (text : String) : IsLeaf (.string text)
  | int (n : Int64) : IsLeaf (.int n)
  | double (x : Binary64) : IsLeaf (.double x)
  | bool (b : Bool) : IsLeaf (.bool b)
  | date (millis : Int64) : IsLeaf (.date millis)
  | objectId (id : ObjectId) : IsLeaf (.objectId id)
  | compared {key : String} {value : Datum} (hkey : key ∈ [Op.gt, Op.gte, Op.lt, Op.lte])
      (h : value.IsNumber ∨ value.IsDate) : IsLeaf (.document [(key, value)])
  | range {lower upper : Datum}
      (h : lower.IsNumber ∧ upper.IsNumber ∨ lower.IsDate ∧ upper.IsDate) :
      IsLeaf (.document [(Op.gte, lower), (Op.lte, upper)])
  | present : IsLeaf (.document [(Op.present, .bool true)])
  | regex (pattern : String) : IsLeaf (.document [(Op.regex, .string pattern)])
  | regexIgnoringCase (pattern : String) :
      IsLeaf (.document [(Op.regex, .string pattern), (Op.options, .string "i")])

theorem ofNumber_isNumber (x : Binary64) : (ofNumber x).IsNumber := by
  unfold ofNumber
  split
  · split
    · exact .int _
    · exact .double _
  · exact .double _

theorem IsNumber.isLeaf {value : Datum} (h : value.IsNumber) : value.IsLeaf := by
  cases h with
  | int n => exact .int n
  | double x => exact .double x

end Datum

/-! ### Scalars and patterns -/

theorem Scalar.toDatum_isLeaf (value : Scalar) : value.toDatum.IsLeaf := by
  cases value with
  | string text => exact .string text
  | number x => exact (Datum.ofNumber_isNumber x).isLeaf
  | boolean b => exact .bool b
  | date moment => exact .date _

theorem regexCondition_isLeaf (pattern : String) (ignoreCase : Bool) :
    (Datum.document (regexCondition pattern ignoreCase)).IsLeaf := by
  cases ignoreCase with
  | false => exact .regex pattern
  | true => exact .regexIgnoringCase pattern

theorem FreeText.condition_isLeaf (text : FreeText) : (Datum.document text.condition).IsLeaf := by
  unfold FreeText.condition
  split
  · dsimp only
    split
    · exact regexCondition_isLeaf _ _
    · exact regexCondition_isLeaf _ _
  · exact regexCondition_isLeaf _ _
  · split
    · exact regexCondition_isLeaf _ _
    · exact regexCondition_isLeaf _ _

/-! ### Bounds -/

/-- A bound that a range of dates, or one of numbers, can have. -/
inductive Bound.IsOf (dates : Bool) : Bound → Prop
  | unbounded : IsOf dates .unbounded
  | date {moment : Moment} (h : dates = true) : IsOf dates (.included (.date moment))
  | number {x : Binary64} (h : dates = false) : IsOf dates (.included (.number x))

theorem Bound.ofText?_isOf {dates : Bool} {text : String} {bound : Bound}
    (h : Bound.ofText? dates text = some bound) : bound.IsOf dates := by
  unfold Bound.ofText? at h
  split at h
  · cases h
    exact .unbounded
  · cases dates with
    | false =>
        simp only [Bool.false_eq_true, if_false, Scalar.ofNumber?, Option.map_map,
          Option.map_eq_some_iff] at h
        obtain ⟨x, -, rfl⟩ := h
        exact .number rfl
    | true =>
        simp only [if_true, Scalar.ofDate?, Option.map_map, Option.map_eq_some_iff] at h
        obtain ⟨moment, -, rfl⟩ := h
        exact .date rfl

theorem Scalar.ofBound?_isOrdered {text : String} {value : Scalar}
    (h : Scalar.ofBound? text = some value) :
    value.toDatum.IsNumber ∨ value.toDatum.IsDate := by
  unfold Scalar.ofBound? at h
  split at h
  · simp only [Scalar.ofDate?, Option.map_eq_some_iff] at h
    obtain ⟨moment, -, rfl⟩ := h
    exact .inr (.date _)
  · simp only [Scalar.ofNumber?, Option.map_eq_some_iff] at h
    obtain ⟨x, -, rfl⟩ := h
    exact .inl (Datum.ofNumber_isNumber x)

theorem Comparison.operator_mem (comparison : Comparison) :
    comparison.operator ∈ [Op.gt, Op.gte, Op.lt, Op.lte] := by
  cases comparison <;> simp [Comparison.operator]

/-- Two bounds of one kind. -/
theorem Ordered.range_isLeaf {dates : Bool} {lower upper : Bound} (hl : lower.IsOf dates)
    (hu : upper.IsOf dates) : (Datum.document (Ordered.range lower upper).condition).IsLeaf := by
  cases hl with
  | unbounded =>
      cases hu with
      | unbounded => exact .present
      | date _ => exact .compared (by simp) (.inr (.date _))
      | number _ => exact .compared (by simp) (.inl (Datum.ofNumber_isNumber _))
  | date hd =>
      cases hu with
      | unbounded => exact .compared (by simp) (.inr (.date _))
      | date _ => exact .range (.inr ⟨.date _, .date _⟩)
      | number hn => rw [hd] at hn; cases hn
  | number hn =>
      cases hu with
      | unbounded => exact .compared (by simp) (.inl (Datum.ofNumber_isNumber _))
      | date hd => rw [hd] at hn; cases hn
      | number _ => exact .range (.inl ⟨Datum.ofNumber_isNumber _, Datum.ofNumber_isNumber _⟩)

/-! ### Literals -/

theorem Resolved.IsFrom.isLeaf {literal : String} {resolved : Resolved}
    (h : resolved.IsFrom literal) : resolved.toDatum.IsLeaf := by
  cases h with
  | string => exact .string literal
  | boolean _ => exact .bool _
  | number _ => exact Scalar.toDatum_isLeaf _
  | date _ => exact Scalar.toDatum_isLeaf _
  | pattern _ => exact regexCondition_isLeaf _ _
  | compared comparison h => exact .compared comparison.operator_mem (Scalar.ofBound?_isOrdered h)
  | everything => exact .present
  | range hl hu _ =>
      exact Ordered.range_isLeaf (Bound.ofText?_isOf hl) (Bound.ofText?_isOf hu)

/-- Every literal resolves to a leaf. -/
theorem resolve_isLeaf {literal : String} {resolved : Resolved}
    (h : resolve literal = .ok resolved) : resolved.toDatum.IsLeaf :=
  (resolve_isFrom h).isLeaf

theorem Value.resolve_isLeaf {value : Value} {resolved : Resolved}
    (h : value.resolve = .ok resolved) : resolved.toDatum.IsLeaf := by
  unfold Value.resolve at h
  split at h
  · cases h
    exact .string _
  · exact QueryFilter.resolve_isLeaf h

/-! ### Clauses of fields -/

/-- The clause of a field is a single entry: the name of the field with a leaf. -/
theorem Options.fieldClause_eq_ok {options : Options} {path : Path} {value : Value}
    {document : Document} (h : options.fieldClause path value = .ok document) :
    ∃ leaf : Datum, document = Document.entry (options.fieldName path) leaf ∧ leaf.IsLeaf := by
  unfold Options.fieldClause at h
  split at h
  · cases h
  · next resolved hresolved =>
    unfold Options.clauseOf at h
    dsimp only at h
    split at h
    · split at h
      · split at h
        · next id _ =>
          cases h
          exact ⟨.objectId id, rfl, .objectId id⟩
        · cases h
      · cases h
    · cases h
      exact ⟨resolved.toDatum, rfl, Value.resolve_isLeaf hresolved⟩

end QueryFilter
