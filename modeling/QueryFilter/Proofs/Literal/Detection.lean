import QueryFilter.Literal.Resolve
import QueryFilter.Proofs.Query.Proper

/-! # What literals resolve to

`Resolved.IsFrom` lists what a literal can stand for, with the texts that the numbers and dates in it
were read off.  Every detector takes a literal for one of these (`Detector.Sound`), and so does the
chain of detectors (`resolve_isFrom`). -/

namespace QueryFilter

/-- What a literal can resolve to. -/
inductive Resolved.IsFrom (literal : String) : Resolved → Prop
  | string : IsFrom literal (.scalar (.string literal))
  | boolean {b : Bool} (h : (Scalar.boolean b).text? = some literal) :
      IsFrom literal (.scalar (.boolean b))
  | number {value : Scalar} (h : Scalar.ofNumber? literal = some value) :
      IsFrom literal (.scalar value)
  | date {value : Scalar} (h : Scalar.ofDate? literal = some value) :
      IsFrom literal (.scalar value)
  | pattern {pattern : Pattern} (h : pattern.text = literal) : IsFrom literal (.pattern pattern)
  | compared (comparison : Comparison) {text : String} {value : Scalar}
      (h : Scalar.ofBound? text = some value) :
      IsFrom literal (.ordered (.compared comparison value))
  | everything : IsFrom literal (.ordered (.range .unbounded .unbounded))
  | range {dates : Bool} {left right : String} {lower upper : Bound}
      (hl : Bound.ofText? dates left = some lower) (hu : Bound.ofText? dates right = some upper)
      (hbounded : ¬(lower = .unbounded ∧ upper = .unbounded)) :
      IsFrom literal (.ordered (.range lower upper))

/-! ### Delimiters and bounds -/

/-- A text is its delimiters with what stands between them. -/
theorem eq_of_between? {opening closing : Char} {cs inside : List Char}
    (h : between? opening closing cs = some inside) : cs = opening :: (inside ++ [closing]) := by
  unfold between? at h
  split at h
  · cases h
  · next c cs =>
    split at h
    · next hends =>
      simp only [Bool.and_eq_true, beq_iff_eq, List.getLast?_eq_some_iff] at hends
      obtain ⟨rfl, before, rfl⟩ := hends
      cases h
      rw [List.dropLast_concat]
    · cases h

theorem between?_delimited (opening closing : Char) (inside : List Char) :
    between? opening closing (opening :: (inside ++ [closing])) = some inside := by
  simp [between?]

theorem between?_eq_none {opening : Char} {cs : List Char} (h : cs.head? ≠ some opening)
    (closing : Char) : between? opening closing cs = none := by
  cases cs with
  | nil => rfl
  | cons c cs =>
      have hne : c ≠ opening := by simpa using h
      simp [between?, hne]

/-- Only a star leaves a range open. -/
theorem Bound.eq_star_of_ofText? {dates : Bool} {text : String}
    (h : Bound.ofText? dates text = some .unbounded) : text = "*" := by
  unfold Bound.ofText? at h
  split at h
  · assumption
  · simp at h

/-! ### Detectors -/

namespace Detector

/-- What the detector takes a literal for is from it. -/
def Sound (detector : Detector) : Prop :=
  ∀ literal resolved, detector literal = .ok (some resolved) → resolved.IsFrom literal

theorem range_sound : Sound range := by
  intro literal resolved h
  unfold range at h
  split at h
  · cases h
  · split at h
    · cases h
      exact .string
    · dsimp only at h
      split at h
      · cases h
        exact .everything
      · split at h
        · cases h
        · next hstars =>
          split at h
          · next hl hu =>
            cases h
            refine .range hl hu fun hopen => hstars ⟨?_, ?_⟩
            · rw [hopen.1] at hl
              exact Bound.eq_star_of_ofText? hl
            · rw [hopen.2] at hu
              exact Bound.eq_star_of_ofText? hu
          · cases h
            exact .string

theorem comparison_sound : Sound comparison := by
  intro literal resolved h
  unfold comparison at h
  split at h
  · cases h
  · next sign rest _ =>
    simp only [Except.ok.injEq, Option.map_eq_some_iff] at h
    obtain ⟨value, hvalue, rfl⟩ := h
    exact .compared sign hvalue

theorem regex_sound : Sound regex := by
  intro literal resolved h
  unfold regex at h
  split at h
  · cases h
  · cases h
  · next pattern _ hbetween =>
    cases h
    apply Resolved.IsFrom.pattern
    rw [← String.toList_inj, eq_of_between? hbetween]
    simp [Pattern.text]

theorem wildcard_sound : Sound wildcard := by
  intro literal resolved h
  unfold wildcard at h
  split at h
  · cases h
    exact .pattern rfl
  · cases h

theorem date_sound : Sound date := by
  intro literal resolved h
  simp only [date, Except.ok.injEq, Option.map_eq_some_iff] at h
  obtain ⟨value, hvalue, rfl⟩ := h
  exact .date hvalue

theorem number_sound : Sound number := by
  intro literal resolved h
  simp only [number, Except.ok.injEq, Option.map_eq_some_iff] at h
  obtain ⟨value, hvalue, rfl⟩ := h
  exact .number hvalue

theorem boolean_sound : Sound boolean := by
  intro literal resolved h
  unfold boolean at h
  split at h
  · next hliteral =>
    cases h
    exact .boolean (congrArg some hliteral.symm)
  · split at h
    · next hliteral =>
      cases h
      exact .boolean (congrArg some hliteral.symm)
    · cases h

/-! ### Operators -/

theorem comparison?_eq_none {cs : List Char} (hgreater : '>' ∉ cs) (hless : '<' ∉ cs) :
    comparison? cs = none := by
  cases cs with
  | nil => rfl
  | cons c cs =>
      have hgt : '>' ≠ c := List.ne_of_not_mem_cons hgreater
      have hlt : '<' ≠ c := List.ne_of_not_mem_cons hless
      simp [comparison?, Comparison.symbol, after?, hgt, hlt]

/-- The operator in front of a text is the longest one. -/
theorem comparison?_symbol (comparison : Comparison) {cs : List Char} (h : cs.head? ≠ some '=') :
    comparison? (comparison.symbol.toList ++ cs) = some (comparison, cs) := by
  have hequals : after? ['='] cs = none := by
    cases cs with
    | nil => rfl
    | cons c cs =>
        have hne : '=' ≠ c := by simpa using Ne.symm h
        simp [after?, hne]
  cases comparison <;> simp [comparison?, Comparison.symbol, after?, hequals]

end Detector

/-! ### The chain -/

theorem detectFirst_isFrom {literal : String} {chain : List (Kind × Detector)}
    (hchain : ∀ detector ∈ chain, detector.2.Sound) {kind : Kind} {resolved : Resolved}
    (h : detectFirst literal chain = .ok (kind, resolved)) : resolved.IsFrom literal := by
  induction chain with
  | nil =>
      cases h
      exact .string
  | cons detector chain ih =>
      obtain ⟨kind', detector⟩ := detector
      rw [detectFirst] at h
      split at h
      · cases h
      · next hd =>
        cases h
        exact hchain (kind, detector) (by simp) literal resolved hd
      · exact ih (fun other ho => hchain other (by simp [ho])) h

theorem detectors_sound : ∀ detector ∈ detectors, detector.2.Sound := by
  simp only [detectors, List.forall_mem_cons, List.not_mem_nil, false_implies, implies_true,
    and_true]
  exact ⟨Detector.range_sound, Detector.comparison_sound, Detector.regex_sound,
    Detector.wildcard_sound, Detector.date_sound, Detector.number_sound, Detector.boolean_sound⟩

/-- What a literal resolves to is from it. -/
theorem resolve_isFrom {literal : String} {resolved : Resolved}
    (h : resolve literal = .ok resolved) : resolved.IsFrom literal := by
  obtain ⟨⟨kind, resolved'⟩, hdetect, rfl⟩ := map_eq_ok_iff.mp h
  exact detectFirst_isFrom detectors_sound hdetect

/-- A literal without the characters that mark the other kinds is shown to the last detectors
only. -/
theorem resolve_of_unmarked {text : String} (h : ∀ c ∈ ['[', '>', '<', '/', '*'], c ∉ text.toList) :
    resolve text = (detectFirst text [(.date, Detector.date), (.number, Detector.number),
      (.boolean, Detector.boolean)]).map (·.2) := by
  have hrange : Detector.range text = .ok none := by
    rw [Detector.range, between?_eq_none fun hhead => h '[' (by simp) (List.mem_of_mem_head? hhead)]
  have hcomparison : Detector.comparison text = .ok none := by
    rw [Detector.comparison, Detector.comparison?_eq_none (h '>' (by simp)) (h '<' (by simp))]
  have hregex : Detector.regex text = .ok none := by
    rw [Detector.regex, between?_eq_none fun hhead => h '/' (by simp) (List.mem_of_mem_head? hhead)]
  have hwildcard : Detector.wildcard text = .ok none := by
    have hstar : text.toList.contains '*' = false := by simpa using h '*' (by simp)
    rw [Detector.wildcard, hstar, if_neg Bool.false_ne_true]
  rw [resolve, detect, detectors]
  simp only [detectFirst, hrange, hcomparison, hregex, hwildcard]

end QueryFilter
