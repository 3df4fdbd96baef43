import Mathlib
import QueryFilter.Proofs.Literal.Bound
import QueryFilter.Proofs.Moment.Timestamp

/-! # Literals written and resolved again

What a literal resolves to is written as a literal unless there is a date in it that has no
timestamp, and the written literal resolves to the same value (`resolve_text`).

A literal that resolves to a string, a truth value or a pattern is written as it was.  Numbers and
dates are written in a form of their own, so it has to be seen that no detector which comes earlier
takes the new text: `Scalar.IsRead` says what numbers and dates can be read, and their texts have only
characters that mark no other literal (`isValueChar`).  In a comparison or a range they are read as
they are alone (`resolve_compared`, `resolve_range`). -/

namespace QueryFilter

/-! ### Dates in a value -/

/-- The dates in a value. -/
def Scalar.moments : Scalar → List Moment
  | .date moment => [moment]
  | .string _ | .number _ | .boolean _ => []

/-- The dates at the end of a range. -/
def Bound.moments : Bound → List Moment
  | .unbounded => []
  | .included value => value.moments
  | .excluded value => value.moments

/-- The dates in ordered values. -/
def Ordered.moments : Ordered → List Moment
  | .compared _ value => value.moments
  | .range lower upper => lower.moments ++ upper.moments

/-- The dates in a resolved literal. -/
def Resolved.moments : Resolved → List Moment
  | .ordered values => values.moments
  | .pattern _ => []
  | .scalar value => value.moments

/-- The year on the clock on the wall does not have four digits. -/
def Moment.YearOutOfRange (m : Moment) : Prop := m.localTime.year < 0 ∨ 9999 < m.localTime.year

/-! ### Characters of values -/

theorem not_mem_of_isValueChar {cs : List Char} (h : ∀ c ∈ cs, isValueChar c = true) {d : Char}
    (hd : isValueChar d = false) : d ∉ cs := by
  intro hmem
  rw [h d hmem] at hd
  cases hd

/-! ### Values that were read -/

/-- The value is a number that can be read, or a date that can be; `dates` says which. -/
inductive Scalar.IsRead : Bool → Scalar → Prop
  | number {x : Binary64} (h : x.isFinite = true) : IsRead false (.number x)
  | date {m : Moment} (h : Timestamp.IsWholeOffset m.offset) : IsRead true (.date m)

namespace Scalar

theorem ofNumber?_isRead {text : String} {value : Scalar}
    (h : Scalar.ofNumber? text = some value) : value.IsRead false := by
  obtain ⟨x, hx, rfl⟩ := Option.map_eq_some_iff.mp h
  exact .number (Binary64.ofText?_isFinite hx)

theorem ofDate?_isRead {text : String} {value : Scalar}
    (h : Scalar.ofDate? text = some value) : value.IsRead true := by
  obtain ⟨m, hm, rfl⟩ := Option.map_eq_some_iff.mp h
  exact .date (Moment.ofText?_isWholeOffset hm)

theorem ofText?_isRead {dates : Bool} {text : String} {value : Scalar}
    (h : Scalar.ofText? dates text = some value) : value.IsRead dates := by
  cases dates with
  | false => exact ofNumber?_isRead h
  | true => exact ofDate?_isRead h

namespace IsRead
variable {dates : Bool} {value : Scalar} {text : String}

theorem text?_eq_none_iff (h : value.IsRead dates) :
    value.text? = none ↔ ∃ m ∈ value.moments, m.YearOutOfRange := by
  cases h with
  | number hx => simp [Scalar.text?, Scalar.moments]
  | date hm =>
      simp only [Scalar.text?, Scalar.moments, List.mem_singleton, exists_eq_left]
      exact Timestamp.write?_eq_none_iff hm

/-- A value is read off its text. -/
theorem ofText?_text (h : value.IsRead dates) (ht : value.text? = some text) :
    Scalar.ofText? dates text = some value := by
  cases h with
  | number hx =>
      obtain rfl := Option.some.inj ht
      exact congrArg (Option.map Scalar.number) (Binary64.ofText?_text hx)
  | date hm => exact congrArg (Option.map Scalar.date) (Moment.ofText?_write ht)

/-- The text of a value has only the characters of numbers and timestamps. -/
theorem text_chars (h : value.IsRead dates) (ht : value.text? = some text) :
    ∀ c ∈ text.toList, isValueChar c = true := by
  cases h with
  | number hx =>
      obtain rfl := Option.some.inj ht
      obtain ⟨n, hchars, -⟩ := Binary64.exists_numeral hx
      obtain ⟨c, rest, hcons, hc, hrest⟩ := n.chars_eq_cons
      rw [hchars, hcons]
      refine List.forall_mem_cons.mpr ⟨?_, ?_⟩
      · rcases hc with hc | rfl
        · exact isValueChar_of_isDigit hc
        · rfl
      · intro d hd
        rcases hrest d hd with hd | rfl
        · exact isValueChar_of_isDigit hd
        · rfl
  | date hm => exact Timestamp.write?_chars ht

end IsRead

end Scalar

/-! ### Bounds -/

/-- The end of a range of dates, or of one of numbers, that can be read. -/
inductive Bound.IsRead (dates : Bool) : Bound → Prop
  | unbounded : IsRead dates .unbounded
  | included {value : Scalar} (h : value.IsRead dates) : IsRead dates (.included value)

namespace Bound

theorem ofText?_isRead {dates : Bool} {text : String} {bound : Bound}
    (h : Bound.ofText? dates text = some bound) : bound.IsRead dates := by
  rcases ofText?_cases h with ⟨-, rfl⟩ | ⟨value, hvalue, rfl⟩
  · exact .unbounded
  · exact .included (Scalar.ofText?_isRead hvalue)

namespace IsRead
variable {dates : Bool} {bound : Bound} {text : String}

theorem text?_eq_none_iff (h : bound.IsRead dates) :
    bound.text? = none ↔ ∃ m ∈ bound.moments, m.YearOutOfRange := by
  cases h with
  | unbounded => simp [Bound.text?, Bound.moments]
  | included h => exact h.text?_eq_none_iff

theorem ofText?_text (h : bound.IsRead dates) (ht : bound.text? = some text) :
    Bound.ofText? dates text = some bound := by
  cases h with
  | unbounded =>
      obtain rfl := Option.some.inj ht
      rfl
  | included h => exact Bound.ofText?_included (h.ofText?_text ht)

end IsRead

end Bound

/-- A range that is not open at both ends is written with its two bounds. -/
theorem Ordered.text?_range {lower upper : Bound}
    (h : ¬(lower = .unbounded ∧ upper = .unbounded)) :
    (Ordered.range lower upper).text? = lower.text?.bind fun l =>
      upper.text?.map fun u => "[" ++ l ++ " TO " ++ u ++ "]" := by
  rw [Ordered.text?]
  · cases lower.text? <;> cases upper.text? <;> rfl
  · rintro rfl rfl
    exact h ⟨rfl, rfl⟩

/-- Numbers and timestamps are shown to the last detectors only. -/
theorem resolve_of_isValueChar {text : String} (h : ∀ c ∈ text.toList, isValueChar c = true) :
    resolve text = (detectFirst text [(.date, Detector.date), (.number, Detector.number),
      (.boolean, Detector.boolean)]).map (·.2) := by
  apply resolve_of_unmarked
  simp only [List.forall_mem_cons, List.not_mem_nil, false_implies, implies_true, and_true]
  exact ⟨not_mem_of_isValueChar h rfl, not_mem_of_isValueChar h rfl, not_mem_of_isValueChar h rfl,
    not_mem_of_isValueChar h rfl, not_mem_of_isValueChar h rfl⟩

/-! ### Resolving what was written -/

theorem resolve_scalar_text {dates : Bool} {value : Scalar} {text : String}
    (h : value.IsRead dates) (ht : value.text? = some text) : resolve text = .ok (.scalar value) := by
  have hread := h.ofText?_text ht
  rw [resolve_of_isValueChar (h.text_chars ht), detectFirst, Detector.date]
  cases dates with
  | true =>
      have hdate : Scalar.ofDate? text = some value := hread
      rw [hdate]
      rfl
  | false =>
      have hnumber : Scalar.ofNumber? text = some value := hread
      have hdate : Scalar.ofDate? text = none := Scalar.ofText?_not hread
      rw [hdate, Option.map_none]
      dsimp only
      rw [detectFirst, Detector.number, hnumber]
      rfl

theorem resolve_compared_text {dates : Bool} {value : Scalar} {text : String}
    (comparison : Comparison) (h : value.IsRead dates) (ht : value.text? = some text) :
    resolve (comparison.symbol ++ text) = .ok (.ordered (.compared comparison value)) := by
  have hcompared := resolve_compared comparison (by simp : ∀ c ∈ "".toList, isBlank c = true)
    (h.ofText?_text ht)
  rwa [String.append_empty] at hcompared

/-! ### The round trip -/

namespace Resolved.IsFrom
variable {literal : String} {r : Resolved}

theorem text?_eq_none_iff (h : r.IsFrom literal) :
    r.text? = none ↔ ∃ m ∈ r.moments, m.YearOutOfRange := by
  cases h with
  | string => simp [Resolved.text?, Scalar.text?, Resolved.moments, Scalar.moments]
  | boolean h => simp [Resolved.text?, h, Resolved.moments, Scalar.moments]
  | number h => exact (Scalar.ofNumber?_isRead h).text?_eq_none_iff
  | date h => exact (Scalar.ofDate?_isRead h).text?_eq_none_iff
  | pattern _ => simp [Resolved.text?, Resolved.moments]
  | compared comparison h =>
      rw [Resolved.text?, Ordered.text?, Option.map_eq_none_iff]
      exact (Scalar.ofText?_isRead h).text?_eq_none_iff
  | everything => simp [Resolved.text?, Ordered.text?, Resolved.moments, Ordered.moments, Bound.moments]
  | range hl hu hbounded =>
      have hlower := (Bound.ofText?_isRead hl).text?_eq_none_iff
      have hupper := (Bound.ofText?_isRead hu).text?_eq_none_iff
      rw [Resolved.text?, Ordered.text?_range hbounded]
      simp only [Resolved.moments, Ordered.moments, List.mem_append, or_and_right, exists_or,
        ← hlower, ← hupper]
      cases Bound.text? _ <;> cases Bound.text? _ <;> simp

/-- What was written resolves to what it was written for. -/
theorem resolve_text? (h : r.IsFrom literal) (hr : resolve literal = .ok r) {text : String}
    (ht : r.text? = some text) : resolve text = .ok r := by
  cases h with
  | string =>
      obtain rfl := Option.some.inj ht
      exact hr
  | boolean h =>
      obtain rfl := Option.some.inj (h.symm.trans ht)
      exact hr
  | number h => exact resolve_scalar_text (Scalar.ofNumber?_isRead h) ht
  | date h => exact resolve_scalar_text (Scalar.ofDate?_isRead h) ht
  | pattern h =>
      obtain rfl := (h.symm.trans (Option.some.inj ht))
      exact hr
  | compared comparison h =>
      obtain ⟨t, hvalue, rfl⟩ := Option.map_eq_some_iff.mp ht
      exact resolve_compared_text comparison (Scalar.ofText?_isRead h) hvalue
  | everything =>
      obtain rfl := Option.some.inj ht
      cbv
  | range hl hu hbounded =>
      rw [Resolved.text?, Ordered.text?_range hbounded, Option.bind_eq_some_iff] at ht
      obtain ⟨l, hlower, ht⟩ := ht
      obtain ⟨u, hupper, rfl⟩ := Option.map_eq_some_iff.mp ht
      exact resolve_range ((Bound.ofText?_isRead hl).ofText?_text hlower)
        ((Bound.ofText?_isRead hu).ofText?_text hupper) hbounded

end Resolved.IsFrom

/-- **What a literal resolves to is written as a literal that resolves to it again.**  Only a date
whose local year has not four digits keeps it from being written. -/
theorem resolve_text {literal : String} {r : Resolved} (h : resolve literal = .ok r) :
    (r.text? = none ↔
      ∃ m ∈ r.moments, m.localTime.year < 0 ∨ 9999 < m.localTime.year) ∧
    ∀ text, r.text? = some text → resolve text = .ok r :=
  ⟨(resolve_isFrom h).text?_eq_none_iff, fun _ ht => (resolve_isFrom h).resolve_text? h ht⟩

theorem resolve_text_dates :
    (∃ r, resolve "[* TO 12/31/2023]" = .ok r ∧ r.text? = some "[* TO 2023-12-31T00:00:00Z]" ∧
      resolve "[* TO 2023-12-31T00:00:00Z]" = .ok r) ∧
    ∃ r, resolve "<= -0001-06-01" = .ok r ∧ r.text? = none ∧
      ∃ m ∈ r.moments, m.localTime.year < 0 ∨ 9999 < m.localTime.year := by
  have hrange : resolve "[* TO 12/31/2023]" = .ok (.ordered (.range .unbounded
      (.included (.date (.ofUtc { year := 2023, month := 12, day := 31 }))))) := by
    cbv
  have hearly : resolve "<= -0001-06-01" = .ok (.ordered (.compared .lessEqual
      (.date (.ofUtc { year := -1, month := 6, day := 1 })))) := by
    cbv
  refine ⟨⟨_, hrange, by cbv, (resolve_text hrange).2 _ (by cbv)⟩, _, hearly, by cbv, ?_⟩
  exact (resolve_text hearly).1.mp (by cbv)

end QueryFilter
