import Mathlib
import QueryFilter.Proofs.Filter.Grouping
import QueryFilter.Proofs.Literal.Bound
import QueryFilter.Proofs.Moment.Range

/-! # Ranges of dates

A date is stored as the milliseconds of its instant, the same alone and as a bound of a range.  No
date that can be read is stored wrongly, and dates are stored in the order of their instants, so a
range from one date to a later one has its bounds in order (`dates_stored_in_order`). -/

namespace QueryFilter

open Document

/-- A date as it is stored: the cast is exact, less than a millisecond is lost, and nothing is lost
of a whole number of milliseconds. -/
theorem Moment.InRange.exists_date {m : Moment} (h : m.InRange) :
    ∃ k : Int64, Datum.ofMoment m = .date k ∧ k.toInt = m.millis ∧
      |k.toInt * 1000000 - m.instant| < 1000000 ∧
      (1000000 ∣ m.instant → k.toInt * 1000000 = m.instant) := by
  refine ⟨Int64.ofInt m.millis, rfl, h.toInt_ofInt_millis, ?_⟩
  rw [h.toInt_ofInt_millis]
  exact ⟨m.abs_millis_sub_lt, millis_mul_eq⟩

/-- A literal that stands for a date is the text of one. -/
theorem ofDate?_of_resolve {literal : String} {m : Moment}
    (h : resolve literal = .ok (.scalar (.date m))) :
    Scalar.ofText? true literal = some (.date m) ∧ Moment.ofText? literal = some m := by
  have hdate : Scalar.ofDate? literal = some (.date m) := by
    cases resolve_isFrom h with
    | date hvalue => exact hvalue
    | number hvalue =>
        obtain ⟨x, -, hx⟩ := Option.map_eq_some_iff.mp hvalue
        cases hx
  refine ⟨hdate, ?_⟩
  obtain ⟨n, hn, heq⟩ := Option.map_eq_some_iff.mp hdate
  cases heq
  exact hn

section compiling
variable {options : Options} {path : Path}

/-- A field between two values. -/
theorem Query.compile_range {literal : String} {lower upper : Scalar}
    (h : resolve literal = .ok (.ordered (.range (.included lower) (.included upper)))) :
    Query.compile options [[.field path (.literal .bracketed literal)]] =
      if options.convertIdentifiers && path.isIdentifier then
        .error (.unsupportedIdentifierQuery (options.fieldName path) literal)
      else .ok (entry (options.fieldName path)
        (.document [(Op.gte, lower.toDatum), (Op.lte, upper.toDatum)])) := by
  have hclause : (Operand.field path (.literal .bracketed literal)).clause options =
      options.clauseOf path literal (.ordered (.range (.included lower) (.included upper))) := by
    rw [Operand.clause, Options.valueClause]
    dsimp only [Options.splitWords?]
    rw [Options.fieldClause, Value.resolve, Value.content, h]
    · dsimp only
      cases options.clauseOf path literal _ <;> rfl
    · simp
  rw [Query.compile_single, hclause, Options.clauseOf]
  rfl

end compiling

/-- **Dates are stored in order and never out of range.**  Every date that is read has a year of at
most six digits and an offset below a day.  Such a date is stored as its exact milliseconds,
truncated towards 1970.  Where the instant of one date is not after that of another, neither is what
is stored of it, and a range from the first to the second has these values as its bounds. -/
theorem dates_stored_in_order :
    (∀ text m, Moment.ofText? text = some m → m.InRange) ∧
    (∀ m : Moment, m.InRange → ∃ k : Int64, Datum.ofMoment m = .date k ∧ k.toInt = m.millis ∧
      |k.toInt * 1000000 - m.instant| < 1000000 ∧
      (1000000 ∣ m.instant → k.toInt * 1000000 = m.instant)) ∧
    ∀ x y m n, resolve x = .ok (.scalar (.date m)) → resolve y = .ok (.scalar (.date n)) →
      m.instant ≤ n.instant →
      ∃ i j : Int64, (Scalar.date m).toDatum = .date i ∧ (Scalar.date n).toDatum = .date j ∧
        i ≤ j ∧ ∀ (options : Options) (path : Path),
          Query.compile options
              [[.field path (.literal .bracketed ("[" ++ x ++ " TO " ++ y ++ "]"))]] =
            if options.convertIdentifiers && path.isIdentifier then
              .error (.unsupportedIdentifierQuery (options.fieldName path)
                ("[" ++ x ++ " TO " ++ y ++ "]"))
            else .ok (entry (options.fieldName path)
              (.document [(Op.gte, .date i), (Op.lte, .date j)])) := by
  refine ⟨fun text m => Moment.inRange_of_ofText?, fun m hm => hm.exists_date,
    fun x y m n hx hy hle => ?_⟩
  obtain ⟨hlower, hxm⟩ := ofDate?_of_resolve hx
  obtain ⟨hupper, hyn⟩ := ofDate?_of_resolve hy
  obtain ⟨i, hi, himillis, -⟩ := (Moment.inRange_of_ofText? hxm).exists_date
  obtain ⟨j, hj, hjmillis, -⟩ := (Moment.inRange_of_ofText? hyn).exists_date
  have hrange := resolve_range (Bound.ofText?_included hlower) (Bound.ofText?_included hupper)
    (by simp)
  refine ⟨i, j, hi, hj, ?_, fun options path => ?_⟩
  · rw [Int64.le_iff_toInt_le, himillis, hjmillis]
    exact Moment.millis_le hle
  · rw [Query.compile_range hrange, Scalar.toDatum, Scalar.toDatum, hi, hj]

/-- From the first day of all to a tenth of a microsecond before 1970, of which nothing is left. -/
theorem dates_stored_in_order_before_1970 :
    ∃ m n : Moment, resolve "-999999-01-01" = .ok (.scalar (.date m)) ∧
      resolve "1970-01-01T23:58:59.9999999+23:59" = .ok (.scalar (.date n)) ∧
      m.instant = -31619087596800000000000 ∧ n.instant = -100 ∧
      Query.compile {} [[.field (.ofText "at") (.literal .bracketed
        "[-999999-01-01 TO 1970-01-01T23:58:59.9999999+23:59]")]] =
        .ok [("at", .document [(Op.gte, .date (-31619087596800000)), (Op.lte, .date 0)])] := by
  have hx : resolve "-999999-01-01" =
      .ok (.scalar (.date (.ofUtc { year := -999999, month := 1, day := 1 }))) := by
    rw [resolve_of_unmarked (by simp)]
    cbv
  have hy : resolve "1970-01-01T23:58:59.9999999+23:59" =
      .ok (.scalar (.date ⟨-1, 999999900, 86340, by decide⟩)) := by
    rw [resolve_of_unmarked (by simp)]
    cbv
  obtain ⟨-, -, hrange⟩ := dates_stored_in_order
  obtain ⟨i, j, hi, hj, -, hcompile⟩ := hrange _ _ _ _ hx hy (by decide)
  cases hi
  cases hj
  exact ⟨_, _, hx, hy, by decide, by decide, hcompile {} (.ofText "at")⟩

end QueryFilter
