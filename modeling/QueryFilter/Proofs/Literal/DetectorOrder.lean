import Mathlib
import QueryFilter.Proofs.Literal.Bound

/-! # The order of the detectors

The wildcard detector apart, no two detectors accept the same literal: its first character tells
them apart (`headKind`), and a date is no number.  A wildcard may also be a range, a comparison, a
regular expression or a date, but never a number or a truth value.

So a literal has at most two detectors that accept it, one of them that of wildcards, and it is
enough that wildcards keep their place among the detectors (`IsArranged`): any other order finds the
same (`detectFirst_of_isArranged`). -/

namespace QueryFilter

/-! ### Accepted literals -/

/-- The detector takes the literal for something, or fails on it. -/
def Detector.accepts (detector : Detector) (literal : String) : Bool :=
  match detector literal with
  | .ok none => false
  | _ => true

/-- Detectors that do not accept the literal can be left out. -/
theorem detectFirst_filter (literal : String) (chain : List (Kind × Detector)) :
    detectFirst literal (chain.filter fun entry => entry.2.accepts literal) =
      detectFirst literal chain := by
  induction chain with
  | nil => rfl
  | cons entry chain ih =>
      obtain ⟨kind, detector⟩ := entry
      rw [List.filter_cons]
      dsimp only
      rw [Detector.accepts]
      cases hd : detector literal with
      | error e => simp [detectFirst, hd]
      | ok found =>
          cases found with
          | none => simpa [detectFirst, hd] using ih
          | some resolved => simp [detectFirst, hd]

/-! ### First characters -/

/-- The kind of a literal that starts with the character, if it is no wildcard and no string.  Dates
start like numbers. -/
def headKind (c : Char) : Kind :=
  if c = '[' then .range
  else if c = '>' ∨ c = '<' then .comparison
  else if c = '/' then .regex
  else if c = 't' ∨ c = 'f' then .boolean
  else .number

theorem headKind_of_isFieldChar {c : Char} (h : isFieldChar c = true) (hslash : c ≠ '/') :
    headKind c = .number := by
  have hne {d : Char} (hd : isFieldChar d = false) : c ≠ d := by
    rintro rfl
    rw [h] at hd
    cases hd
  rw [headKind, if_neg (hne rfl), if_neg (not_or.mpr ⟨hne rfl, hne rfl⟩), if_neg hslash,
    if_neg (not_or.mpr ⟨hne rfl, hne rfl⟩)]

theorem IsInteger.head_ne_slash {cs : List Char} (h : IsInteger cs) : cs.head? ≠ some '/' := by
  obtain ⟨sign, digits, rfl, hsign, hne, hdigits⟩ := h
  obtain ⟨d, more, rfl⟩ := List.exists_cons_of_ne_nil hne
  have hd : d ≠ '/' := by
    rintro rfl
    cases hdigits '/' (by simp)
  simp only [List.mem_cons, List.not_mem_nil, or_false] at hsign
  rcases hsign with rfl | rfl | rfl <;> simp [hd]

/-- Numbers and dates start like numbers. -/
theorem Scalar.headKind_of_ofText? {dates : Bool} {text : String} {value : Scalar}
    (h : Scalar.ofText? dates text = some value) :
    ∃ c ∈ text.toList.head?, headKind c = .number := by
  cases dates with
  | true =>
      obtain ⟨m, hm, -⟩ := Option.map_eq_some_iff.mp h
      obtain ⟨integer, mark, rest, htext, hinteger, -⟩ :=
        (Moment.isDateText_of_ofText? hm).exists_mark
      obtain ⟨c, more, rfl⟩ := List.exists_cons_of_ne_nil hinteger.ne_nil
      refine ⟨c, by rw [htext]; rfl, headKind_of_isFieldChar (hinteger.isFieldChar c (by simp)) ?_⟩
      rintro rfl
      exact hinteger.head_ne_slash rfl
  | false =>
      obtain ⟨x, hx, -⟩ := Option.map_eq_some_iff.mp h
      obtain ⟨d, hd, -⟩ := Option.bind_eq_some_iff.mp hx
      obtain ⟨hne, hchars⟩ := Decimal.ofText?_chars hd
      obtain ⟨c, more, htext⟩ := List.exists_cons_of_ne_nil hne
      refine ⟨c, by rw [htext]; rfl, headKind_of_isFieldChar (hchars c (by simp [htext])) ?_⟩
      rintro rfl
      rw [htext] at hd
      cases hd

namespace Detector
variable {literal : String}

theorem head_of_between? {opening : Char} (closing : Char) {cs : List Char}
    (h : between? opening closing cs ≠ none) : opening ∈ cs.head? :=
  not_imp_comm.mp (fun hhead => between?_eq_none hhead closing) h

theorem range_accepts (h : range.accepts literal = true) :
    ∃ c ∈ literal.toList.head?, headKind c = .range := by
  refine ⟨'[', head_of_between? ']' fun hnone => ?_, rfl⟩
  rw [accepts, range, hnone] at h
  cases h

theorem regex_accepts (h : regex.accepts literal = true) :
    ∃ c ∈ literal.toList.head?, headKind c = .regex := by
  refine ⟨'/', head_of_between? '/' fun hnone => ?_, rfl⟩
  rw [accepts, regex, hnone] at h
  cases h

theorem comparison_accepts (h : comparison.accepts literal = true) :
    ∃ c ∈ literal.toList.head?, headKind c = .comparison := by
  have hsome : comparison? literal.toList ≠ none := by
    intro hnone
    rw [accepts, comparison, hnone] at h
    cases h
  cases hcs : literal.toList with
  | nil => exact absurd (by rw [hcs]; rfl) hsome
  | cons c cs =>
      refine ⟨c, rfl, ?_⟩
      by_contra hc
      have hgreater : '>' ≠ c := by
        rintro rfl
        exact hc rfl
      have hless : '<' ≠ c := by
        rintro rfl
        exact hc rfl
      exact hsome (by simp [hcs, comparison?, Comparison.symbol, after?, hgreater, hless])

theorem boolean_accepts (h : boolean.accepts literal = true) :
    literal = "true" ∨ literal = "false" := by
  rw [accepts, boolean] at h
  split_ifs at h with htrue hfalse
  · exact .inl htrue
  · exact .inr hfalse

theorem date_accepts (h : date.accepts literal = true) :
    ∃ value, Scalar.ofText? true literal = some value := by
  rw [accepts, date] at h
  cases hvalue : Scalar.ofDate? literal with
  | none => rw [hvalue] at h; cases h
  | some value => exact ⟨value, hvalue⟩

theorem number_accepts (h : number.accepts literal = true) :
    ∃ value, Scalar.ofText? false literal = some value := by
  rw [accepts, number] at h
  cases hvalue : Scalar.ofNumber? literal with
  | none => rw [hvalue] at h; cases h
  | some value => exact ⟨value, hvalue⟩

theorem wildcard_accepts : wildcard.accepts literal = true ↔ '*' ∈ literal.toList := by
  rw [accepts, wildcard, List.contains_eq_mem]
  by_cases h : '*' ∈ literal.toList <;> simp [h]

end Detector

/-! ### Which detectors accept a literal -/

section accepting
variable {literal : String} {a b : Kind × Detector}

/-- A literal that is accepted starts like one of its kind, if it is no wildcard. -/
theorem headKind_of_accepts (ha : a ∈ detectors) (hkind : a.1 ≠ .wildcard)
    (h : a.2.accepts literal = true) :
    ∃ c ∈ literal.toList.head?, headKind c = if a.1 = .date then .number else a.1 := by
  simp only [detectors, List.mem_cons, List.not_mem_nil, or_false] at ha
  rcases ha with rfl | rfl | rfl | rfl | rfl | rfl | rfl
  · exact Detector.range_accepts h
  · exact Detector.comparison_accepts h
  · exact Detector.regex_accepts h
  · exact absurd rfl hkind
  · obtain ⟨value, hvalue⟩ := Detector.date_accepts h
    exact Scalar.headKind_of_ofText? hvalue
  · obtain ⟨value, hvalue⟩ := Detector.number_accepts h
    exact Scalar.headKind_of_ofText? hvalue
  · rcases Detector.boolean_accepts h with rfl | rfl
    · exact ⟨'t', rfl, rfl⟩
    · exact ⟨'f', rfl, rfl⟩

theorem detectors_nodup : (detectors.map Prod.fst).Nodup := by decide

/-- A detector is found by its kind. -/
theorem eq_of_kind_eq (ha : a ∈ detectors) (hb : b ∈ detectors) (h : a.1 = b.1) : a = b :=
  List.inj_on_of_nodup_map detectors_nodup ha hb h

/-- No literal is both a date and a number. -/
theorem not_accepts_date_number (hdate : Detector.date.accepts literal = true)
    (hnumber : Detector.number.accepts literal = true) : False := by
  obtain ⟨m, hm⟩ := Detector.date_accepts hdate
  obtain ⟨x, hx⟩ := Detector.number_accepts hnumber
  have hnot : Scalar.ofText? true literal = none := Scalar.ofText?_not hx
  rw [hnot] at hm
  cases hm

/-- The detectors other than that of wildcards accept different literals. -/
theorem eq_of_accepts (ha : a ∈ detectors) (hb : b ∈ detectors) (hakind : a.1 ≠ .wildcard)
    (hbkind : b.1 ≠ .wildcard) (hal : a.2.accepts literal = true)
    (hbl : b.2.accepts literal = true) : a.1 = b.1 := by
  have hdate {entry : Kind × Detector} (hentry : entry ∈ detectors) (hkind : entry.1 = .date) :
      entry = (.date, Detector.date) := eq_of_kind_eq hentry (by simp [detectors]) hkind
  have hnumber {entry : Kind × Detector} (hentry : entry ∈ detectors) (hkind : entry.1 = .number) :
      entry = (.number, Detector.number) := eq_of_kind_eq hentry (by simp [detectors]) hkind
  obtain ⟨c, hc, hkindA⟩ := headKind_of_accepts ha hakind hal
  obtain ⟨d, hd, hkindB⟩ := headKind_of_accepts hb hbkind hbl
  obtain rfl : c = d := Option.some.inj (hc.symm.trans hd)
  rw [hkindA] at hkindB
  split_ifs at hkindB with hda hdb hdb
  · rw [hda, hdb]
  · obtain rfl := hdate ha hda
    obtain rfl := hnumber hb hkindB.symm
    exact (not_accepts_date_number hal hbl).elim
  · obtain rfl := hdate hb hdb
    obtain rfl := hnumber ha hkindB
    exact (not_accepts_date_number hbl hal).elim
  · exact hkindB

/-- Neither a number nor a truth value has a star in it. -/
theorem not_accepts_wildcard
    (h : Detector.number.accepts literal = true ∨ Detector.boolean.accepts literal = true) :
    Detector.wildcard.accepts literal = false := by
  rw [← Bool.not_eq_true, Detector.wildcard_accepts]
  rcases h with h | h
  · obtain ⟨value, hvalue⟩ := Detector.number_accepts h
    obtain ⟨x, hx, -⟩ := Option.map_eq_some_iff.mp hvalue
    obtain ⟨d, hd, -⟩ := Option.bind_eq_some_iff.mp hx
    intro hstar
    cases (Decimal.ofText?_chars hd).2 '*' hstar
  · rcases Detector.boolean_accepts h with rfl | rfl <;> simp

/-- What else a wildcard can be. -/
theorem kind_of_accepts_wildcard (ha : a ∈ detectors) (hkind : a.1 ≠ .wildcard)
    (hal : a.2.accepts literal = true) (hstar : Detector.wildcard.accepts literal = true) :
    a.1 ∈ [Kind.range, .comparison, .regex] ∨ a.1 = .date := by
  simp only [detectors, List.mem_cons, List.not_mem_nil, or_false] at ha
  rcases ha with rfl | rfl | rfl | rfl | rfl | rfl | rfl
  · exact .inl (by simp)
  · exact .inl (by simp)
  · exact .inl (by simp)
  · exact absurd rfl hkind
  · exact .inr rfl
  · rw [not_accepts_wildcard (.inl hal)] at hstar
    cases hstar
  · rw [not_accepts_wildcard (.inr hal)] at hstar
    cases hstar

end accepting

/-! ### Arrangements -/

/-- The detectors in any order that keeps wildcards after ranges, comparisons and regular
expressions and before dates. -/
structure IsArranged (chain : List (Kind × Detector)) : Prop where
  perm : chain.Perm detectors
  before_wildcard : ∀ kind ∈ [Kind.range, .comparison, .regex],
    (chain.map Prod.fst).idxOf kind < (chain.map Prod.fst).idxOf .wildcard
  wildcard_before_date :
    (chain.map Prod.fst).idxOf .wildcard < (chain.map Prod.fst).idxOf .date

/-- The kind stands where it may with respect to a kind after it, as far as wildcards go. -/
def Kind.MayPrecede (first second : Kind) : Prop :=
  ¬(first = .wildcard ∧ second ∈ [Kind.range, .comparison, .regex]) ∧
    ¬(first = .date ∧ second = .wildcard)

theorem isArranged_detectors : IsArranged detectors :=
  ⟨.refl detectors, by decide, by decide⟩

namespace IsArranged
variable {chain : List (Kind × Detector)}

theorem pairwise (h : IsArranged chain) : chain.Pairwise fun a b => a.1.MayPrecede b.1 := by
  have hnodup : (chain.map Prod.fst).Nodup := (h.perm.map Prod.fst).nodup_iff.mpr detectors_nodup
  rw [← List.pairwise_map (f := Prod.fst) (R := Kind.MayPrecede), List.pairwise_iff_getElem]
  intro i j hi hj hlt
  have hfirst := hnodup.idxOf_getElem i hi
  have hsecond := hnodup.idxOf_getElem j hj
  constructor
  · rintro ⟨hwildcard, hkind⟩
    have hbefore := h.before_wildcard _ hkind
    rw [hsecond, ← hwildcard, hfirst] at hbefore
    omega
  · rintro ⟨hdate, hwildcard⟩
    have hbefore := h.wildcard_before_date
    rw [← hwildcard, hsecond, ← hdate, hfirst] at hbefore
    omega

end IsArranged

section order
variable {literal : String} {a b : Kind × Detector} {chain : List (Kind × Detector)}

/-- A detector and that of wildcards accept the same literal in one order only. -/
theorem not_mayPrecede_wildcard (ha : a ∈ detectors) (hkind : a.1 ≠ .wildcard)
    (hal : a.2.accepts literal = true) (hstar : Detector.wildcard.accepts literal = true)
    (hbefore : a.1.MayPrecede .wildcard) (hafter : Kind.wildcard.MayPrecede a.1) : False := by
  rcases kind_of_accepts_wildcard ha hkind hal hstar with hmem | hdate
  · exact hafter.1 ⟨rfl, hmem⟩
  · exact hbefore.2 ⟨hdate, rfl⟩

/-- Two detectors accept the same literal in one order only. -/
theorem eq_of_mayPrecede (ha : a ∈ detectors) (hb : b ∈ detectors)
    (hal : a.2.accepts literal = true) (hbl : b.2.accepts literal = true)
    (hab : a.1.MayPrecede b.1) (hba : b.1.MayPrecede a.1) : a = b := by
  have hwildcard {entry : Kind × Detector} (hentry : entry ∈ detectors)
      (hkind : entry.1 = .wildcard) : entry = (.wildcard, Detector.wildcard) :=
    eq_of_kind_eq hentry (by simp [detectors]) hkind
  apply eq_of_kind_eq ha hb
  by_cases haw : a.1 = .wildcard <;> by_cases hbw : b.1 = .wildcard
  · rw [haw, hbw]
  · obtain rfl := hwildcard ha haw
    exact (not_mayPrecede_wildcard hb hbw hbl hal hba hab).elim
  · obtain rfl := hwildcard hb hbw
    exact (not_mayPrecede_wildcard ha haw hal hbl hab hba).elim
  · exact eq_of_accepts ha hb haw hbw hal hbl

/-- All arrangements agree on the detectors that accept a literal. -/
theorem IsArranged.filter_eq (h : IsArranged chain) (literal : String) :
    (chain.filter fun entry => entry.2.accepts literal) =
      detectors.filter fun entry => entry.2.accepts literal := by
  refine List.Perm.eq_of_pairwise ?_ (h.pairwise.filter _) (isArranged_detectors.pairwise.filter _)
    (h.perm.filter _)
  intro a b ha hb hab hba
  rw [List.mem_filter] at ha hb
  exact eq_of_mayPrecede (h.perm.subset ha.1) hb.1 ha.2 hb.2 hab hba

end order

/-- **Only the place of the wildcards matters.**  At most one of the other detectors accepts a
literal, and numbers and truth values are no wildcards; so every arrangement of the detectors takes
every literal for the same. -/
theorem detectFirst_of_isArranged (literal : String) :
    (∀ a ∈ detectors, ∀ b ∈ detectors, a.1 ≠ .wildcard → b.1 ≠ .wildcard →
      a.2.accepts literal = true → b.2.accepts literal = true → a.1 = b.1) ∧
    (Detector.number.accepts literal = true ∨ Detector.boolean.accepts literal = true →
      Detector.wildcard.accepts literal = false) ∧
    ∀ chain, IsArranged chain → detectFirst literal chain = detect literal ∧
      (detectFirst literal chain).map (·.2) = resolve literal := by
  refine ⟨fun a ha b hb => eq_of_accepts ha hb, not_accepts_wildcard, fun chain hchain => ?_⟩
  have hsame : detectFirst literal chain = detect literal := by
    rw [← detectFirst_filter, hchain.filter_eq, detectFirst_filter]
    rfl
  exact ⟨hsame, congrArg (·.map (·.2)) hsame⟩

/-- A literal that is a wildcard and a date, shown to numbers and truth values first. -/
theorem detectFirst_of_isArranged_starred :
    let chain := [(Kind.number, Detector.number), (.regex, Detector.regex),
      (.boolean, Detector.boolean), (.range, Detector.range), (.comparison, Detector.comparison),
      (.wildcard, Detector.wildcard), (.date, Detector.date)]
    IsArranged chain ∧ Detector.date.accepts "2023-01-15*10:30:00Z" = true ∧
      detectFirst "2023-01-15*10:30:00Z" chain =
        .ok (.wildcard, .pattern (.wildcard "2023-01-15*10:30:00Z")) ∧
      Detector.number.accepts "-2.5e+3" = true ∧ Detector.wildcard.accepts "-2.5e+3" = false ∧
      ∀ a ∈ detectors, a.1 ≠ .wildcard → a.2.accepts "[1 TO *]" = true → a.1 = .range := by
  intro chain
  have harranged : IsArranged chain := by
    have hnodup : chain.Nodup := List.Nodup.of_map Prod.fst (by decide)
    refine ⟨?_, by decide, by decide⟩
    rw [List.perm_ext_iff_of_nodup hnodup detectors_nodup.of_map]
    intro entry
    simp only [chain, detectors, List.mem_cons, List.not_mem_nil, or_false]
    tauto
  have hnumber : Detector.number.accepts "-2.5e+3" = true := by cbv
  have hrange : Detector.range.accepts "[1 TO *]" = true := by cbv
  refine ⟨harranged, by cbv, ?_, hnumber, (detectFirst_of_isArranged _).2.1 (.inl hnumber), ?_⟩
  · rw [((detectFirst_of_isArranged _).2.2 chain harranged).1]
    cbv
  · intro a ha hkind haccepts
    exact (detectFirst_of_isArranged _).1 a ha (.range, Detector.range) (by simp [detectors]) hkind
      (by simp) haccepts hrange

end QueryFilter
