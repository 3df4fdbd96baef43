import Mathlib
import QueryFilter.Proofs.Literal.Detection
import QueryFilter.Proofs.Literal.RangeKeyword
import QueryFilter.Proofs.Moment.DateText

/-! # Values as bounds

A number or a date is read the same alone, after a comparison operator and as an end of a range
(`resolve_as_bound`).

Three things have to be seen of the text of a value.  The literal around it is cut at the ends of the
text: the text neither starts nor ends with a blank, it does not make the operator in front of it a
longer one, and there is no word `TO` in it (`IsBoundText`).  The text is taken for a date if and only
if it is one (`Scalar.isDateBound_of_ofText?`).  And it is no star. -/

namespace QueryFilter

/-! ### Trimming -/

/-- A text without blanks at its ends. -/
structure IsTrimmed (cs : List Char) : Prop where
  ne_nil : cs ≠ []
  head_not_blank : ∀ c ∈ cs.head?, isBlank c = false
  last_not_blank : ∀ c ∈ cs.getLast?, isBlank c = false

namespace IsTrimmed
variable {cs before after : List Char}

theorem dropWhile_append (h : IsTrimmed cs) (rest : List Char) :
    (cs ++ rest).dropWhile isBlank = cs ++ rest := by
  obtain ⟨c, tail, rfl⟩ := List.exists_cons_of_ne_nil h.ne_nil
  exact List.dropWhile_cons_of_neg (by simpa using h.head_not_blank c rfl)

theorem reverse (h : IsTrimmed cs) : IsTrimmed cs.reverse where
  ne_nil := mt List.reverse_eq_nil_iff.mp h.ne_nil
  head_not_blank := by
    rw [List.head?_reverse]
    exact h.last_not_blank
  last_not_blank := by
    rw [List.getLast?_reverse]
    exact h.head_not_blank

/-- Only the blanks around a text are trimmed off. -/
theorem trim_eq (h : IsTrimmed cs) (hbefore : ∀ c ∈ before, isBlank c = true)
    (hafter : ∀ c ∈ after, isBlank c = true) : trim (before ++ cs ++ after) = cs := by
  have hstart : trimStart (before ++ cs ++ after) = cs ++ after := by
    rw [trimStart, List.append_assoc, List.dropWhile_append_of_pos hbefore, h.dropWhile_append]
  have hend : (after.reverse ++ cs.reverse).dropWhile isBlank = cs.reverse := by
    rw [List.dropWhile_append_of_pos fun c hc => hafter c (List.mem_reverse.mp hc)]
    simpa using h.reverse.dropWhile_append []
  rw [trim, hstart, trimEnd, List.reverse_append, hend, List.reverse_reverse]

theorem append (hbefore : IsTrimmed before) (hafter : IsTrimmed after) (middle : List Char) :
    IsTrimmed (before ++ middle ++ after) where
  ne_nil := List.append_ne_nil_of_right_ne_nil _ hafter.ne_nil
  head_not_blank := by
    rw [List.append_assoc, List.head?_append_of_ne_nil _ hbefore.ne_nil]
    exact hbefore.head_not_blank
  last_not_blank := by
    rw [List.getLast?_append_of_ne_nil _ hafter.ne_nil]
    exact hafter.last_not_blank

end IsTrimmed

/-! ### Texts of bounds -/

/-- A text that is found whole in a comparison or a range with it. -/
structure IsBoundText (cs : List Char) : Prop extends IsTrimmed cs where
  head_ne_equals : cs.head? ≠ some '='
  pairwise : cs.Pairwise fun t o => ¬SpellsTo t o

section fields
variable {cs : List Char} {c t o : Char}

theorem isBlank_of_isFieldChar (h : isFieldChar c = true) : isBlank c = false := by
  rw [isFieldChar, Bool.or_eq_true] at h
  rcases h with h | h
  · have hbounds : 48 ≤ c.toNat ∧ c.toNat ≤ 57 := by
      simpa [Char.isDigit, UInt32.le_iff_toNat_le] using h
    simp only [isBlank, inRanges, blankRanges, List.any_cons, List.any_nil, Bool.or_false,
      Bool.or_eq_false_iff, Bool.and_eq_false_iff, decide_eq_false_iff_not]
    omega
  · simp only [List.contains_eq_mem, List.mem_cons, List.not_mem_nil, or_false,
      decide_eq_true_eq] at h
    rcases h with rfl | rfl | rfl | rfl | rfl | rfl | rfl | rfl | rfl <;> rfl

theorem not_spellsTo_of_left (h : isFieldChar t = true) : ¬SpellsTo t o := by
  rintro ⟨rfl | rfl, -⟩ <;> cases h

theorem not_spellsTo_of_right (h : isFieldChar o = true) : ¬SpellsTo t o := by
  rintro ⟨-, rfl | rfl⟩ <;> cases h

/-- The ends of a bound are characters of numbers and dates. -/
theorem IsBoundText.of_ends (hne : cs ≠ []) (hhead : ∀ c ∈ cs.head?, isFieldChar c = true)
    (hlast : ∀ c ∈ cs.getLast?, isFieldChar c = true)
    (hpairwise : cs.Pairwise fun t o => ¬SpellsTo t o) : IsBoundText cs where
  ne_nil := hne
  head_not_blank c hc := isBlank_of_isFieldChar (hhead c hc)
  last_not_blank c hc := isBlank_of_isFieldChar (hlast c hc)
  head_ne_equals h := by cases hhead '=' h
  pairwise := hpairwise

theorem pairwise_of_isFieldChar (h : ∀ c ∈ cs, isFieldChar c = true) :
    cs.Pairwise fun t o => ¬SpellsTo t o :=
  List.pairwise_of_forall_mem_list fun t ht _ _ => not_spellsTo_of_left (h t ht)

theorem IsBoundText.of_isFieldChar (hne : cs ≠ []) (h : ∀ c ∈ cs, isFieldChar c = true) :
    IsBoundText cs :=
  .of_ends hne (fun c hc => h c (List.mem_of_mem_head? hc))
    (fun c hc => h c (List.mem_of_mem_getLast? hc)) (pairwise_of_isFieldChar h)

/-- One character among them may be any: a word has two. -/
theorem IsBoundText.of_separated {front back : List Char} (hfront : front ≠ [])
    (hf : ∀ c ∈ front, isFieldChar c = true) (hback : back ≠ [])
    (hb : ∀ c ∈ back, isFieldChar c = true) (separator : Char) :
    IsBoundText (front ++ separator :: back) := by
  apply IsBoundText.of_ends (by simp)
  · rw [List.head?_append_of_ne_nil _ hfront]
    exact fun c hc => hf c (List.mem_of_mem_head? hc)
  · rw [List.append_cons, List.getLast?_append_of_ne_nil _ hback]
    exact fun c hc => hb c (List.mem_of_mem_getLast? hc)
  · refine List.pairwise_append.mpr ⟨pairwise_of_isFieldChar hf, List.pairwise_cons.mpr
      ⟨fun o ho => not_spellsTo_of_right (hb o ho), pairwise_of_isFieldChar hb⟩, ?_⟩
    exact fun t ht _ _ => not_spellsTo_of_left (hf t ht)

end fields

theorem IsDateText.isBoundText {cs : List Char} (h : IsDateText cs) : IsBoundText cs := by
  have hday {layout : Layout} {day : List Char} (hlayout : layout ∈ Layout.days)
      (hday : layout.Spells day) : day ≠ [] ∧ ∀ c ∈ day, isFieldChar c = true := by
    obtain ⟨integer, mark, rest, heq, -⟩ := hday.exists_mark hlayout
    exact ⟨by simp [heq], hday.isFieldChar (Layout.all_isField_of_mem_days hlayout)⟩
  cases h with
  | day hlayout hspelled =>
      obtain ⟨hne, hchars⟩ := hday hlayout hspelled
      exact .of_isFieldChar hne hchars
  | timed hlayout hspelled separator hne htime =>
      obtain ⟨hdayne, hchars⟩ := hday hlayout hspelled
      exact .of_separated hdayne hchars hne htime separator

/-! ### Cutting -/

section cutting
variable {cs lower upper : List Char}

/-- The first word `TO` is the one after the text. -/
theorem isFirstKeywordSplit_append (h : cs.Pairwise fun t o => ¬SpellsTo t o) (rest : List Char) :
    IsFirstKeywordSplit (cs ++ ' ' :: 'T' :: 'O' :: ' ' :: rest) (cs ++ [' ']) (' ' :: rest) where
  spelled := ⟨'T', 'O', by simp, .inl rfl, .inl rfl⟩
  before_word := .inr List.getLast?_concat
  after_word := .inr rfl
  first := by
    intro before after hsplit
    obtain ⟨t, o, heq, hword⟩ := hsplit.spelled
    have hpairwise : (cs ++ [' ']).Pairwise fun t o => ¬SpellsTo t o := by
      refine List.pairwise_append.mpr ⟨h, List.pairwise_singleton _ _, fun t _ o ho => ?_⟩
      simp [List.mem_singleton.mp ho, SpellsTo]
    rw [List.append_cons] at heq
    rcases List.append_eq_append_iff.mp heq with ⟨more, rfl, -⟩ | ⟨more, hmore, hrest⟩
    · exact (List.prefix_append _ more).length_le
    · -- An earlier word would lie in the text and the space after it.
      cases more with
      | nil =>
          rw [List.append_nil] at hmore
          exact hmore ▸ Nat.le_refl _
      | cons t' more =>
          cases (List.cons.inj hrest).1
          cases more with
          | nil =>
              cases List.singleton_inj.mp (List.append_inj' hmore rfl).2
              simp [SpellsTo] at hword
          | cons o' more =>
              cases (List.cons.inj (List.cons.inj hrest).2).1
              rw [hmore] at hpairwise
              have hlast := (List.pairwise_append.mp hpairwise).2.1
              exact absurd hword (List.rel_of_pairwise_cons hlast (by simp))

/-- The bounds of a range are what was written around `TO`. -/
theorem splitRange_bounds (hl : IsBoundText lower) (hu : IsBoundText upper) :
    splitRange (lower ++ ' ' :: 'T' :: 'O' :: ' ' :: upper) = some (lower, upper) := by
  have hspace : ∀ c ∈ [' '], isBlank c = true := List.forall_mem_singleton.mpr rfl
  have hnone : ∀ c ∈ ([] : List Char), isBlank c = true := by simp
  have hinside : trim (lower ++ ' ' :: 'T' :: 'O' :: ' ' :: upper) =
      lower ++ ' ' :: 'T' :: 'O' :: ' ' :: upper := by
    have htrim := (hl.toIsTrimmed.append hu.toIsTrimmed [' ', 'T', 'O', ' ']).trim_eq hnone hnone
    simpa using htrim
  have hlower : trim (lower ++ [' ']) = lower := hl.trim_eq hnone hspace
  have hupper : trim (' ' :: upper) = upper := by
    have htrim := hu.trim_eq hspace hnone
    simpa using htrim
  have hfirst := isFirstKeywordSplit_append hl.pairwise upper
  rw [← hinside] at hfirst
  rw [hfirst.splitRange_eq, hlower, hupper]

end cutting

/-! ### Values -/

/-- A date or a number as a value. -/
def Scalar.ofText? (dates : Bool) (text : String) : Option Scalar :=
  if dates then Scalar.ofDate? text else Scalar.ofNumber? text

namespace Scalar
variable {dates : Bool} {text : String} {value : Scalar}

theorem isBoundText_of_ofText? (h : Scalar.ofText? dates text = some value) :
    IsBoundText text.toList := by
  cases dates with
  | true =>
      obtain ⟨m, hm, -⟩ := Option.map_eq_some_iff.mp h
      exact (Moment.isDateText_of_ofText? hm).isBoundText
  | false =>
      obtain ⟨x, hx, -⟩ := Option.map_eq_some_iff.mp h
      obtain ⟨d, hd, -⟩ := Option.bind_eq_some_iff.mp hx
      obtain ⟨hne, hchars⟩ := Decimal.ofText?_chars hd
      exact .of_isFieldChar hne hchars

/-- A bound is taken for a date if it is one. -/
theorem isDateBound_of_ofText? (h : Scalar.ofText? dates text = some value) :
    isDateBound text = dates := by
  cases dates with
  | true =>
      obtain ⟨m, hm, -⟩ := Option.map_eq_some_iff.mp h
      have hdate := Moment.isDateText_of_ofText? hm
      have hnumber : Binary64.ofText? text = none := by
        rw [Binary64.ofText?, hdate.decimal_eq_none, Option.bind_none]
      rw [isDateBound, hdate.looksLikeDate, hnumber]
      rfl
  | false =>
      obtain ⟨x, hx, -⟩ := Option.map_eq_some_iff.mp h
      rw [isDateBound, hx, Option.isNone_some, Bool.and_false]

/-- No text is both a date and a number. -/
theorem ofText?_not (h : Scalar.ofText? dates text = some value) :
    Scalar.ofText? (!dates) text = none := by
  cases hother : Scalar.ofText? (!dates) text with
  | none => rfl
  | some other =>
      have hsame := (isDateBound_of_ofText? hother).symm.trans (isDateBound_of_ofText? h)
      exact absurd hsame (Bool.not_ne_self dates)

theorem ne_star_of_ofText? (h : Scalar.ofText? dates text = some value) : text ≠ "*" := by
  rintro rfl
  cases dates <;> cases h

theorem ofBound?_of_ofText? (h : Scalar.ofText? dates text = some value) :
    Scalar.ofBound? text = some value := by
  rw [ofBound?, isDateBound_of_ofText? h]
  exact h

end Scalar

namespace Bound
variable {dates : Bool} {text l u : String} {value : Scalar} {bound lower upper : Bound}

theorem ofText?_eq (dates : Bool) (htext : text ≠ "*") :
    Bound.ofText? dates text = (Scalar.ofText? dates text).map .included := by
  rw [Bound.ofText?, if_neg htext]
  rfl

theorem ofText?_included (h : Scalar.ofText? dates text = some value) :
    Bound.ofText? dates text = some (.included value) := by
  rw [ofText?_eq dates (Scalar.ne_star_of_ofText? h), h, Option.map_some]

/-- A bound is a star, or it is a value. -/
theorem ofText?_cases (h : Bound.ofText? dates text = some bound) :
    text = "*" ∧ bound = .unbounded ∨
      ∃ value, Scalar.ofText? dates text = some value ∧ bound = .included value := by
  by_cases hstar : text = "*"
  · subst hstar
    exact .inl ⟨rfl, (Option.some.inj h).symm⟩
  · rw [ofText?_eq dates hstar] at h
    obtain ⟨value, hvalue, rfl⟩ := Option.map_eq_some_iff.mp h
    exact .inr ⟨value, hvalue, rfl⟩

theorem isBoundText_of_ofText? (h : Bound.ofText? dates text = some bound) :
    IsBoundText text.toList := by
  rcases ofText?_cases h with ⟨rfl, -⟩ | ⟨value, hvalue, -⟩
  · have hblank : isBlank '*' = false := rfl
    exact ⟨⟨by simp, by simpa using hblank, by simpa using hblank⟩, by simp, by simp⟩
  · exact Scalar.isBoundText_of_ofText? hvalue

theorem isDateBound_of_ofText? (h : Bound.ofText? dates text = some bound) :
    (text != "*" && isDateBound text) = (dates && bound != .unbounded) := by
  rcases ofText?_cases h with ⟨rfl, rfl⟩ | ⟨value, hvalue, rfl⟩
  · simp
  · have hstar : (text != "*") = true := bne_iff_ne.mpr (Scalar.ne_star_of_ofText? hvalue)
    rw [Scalar.isDateBound_of_ofText? hvalue, hstar]
    simp

/-- A range is one of dates if one of its bounds is a date. -/
theorem isDateRange_of_ofText? (hl : Bound.ofText? dates l = some lower)
    (hu : Bound.ofText? dates u = some upper)
    (hbounded : ¬(lower = .unbounded ∧ upper = .unbounded)) : isDateRange l u = dates := by
  have hsome : (lower != .unbounded || upper != .unbounded) = true := by
    rw [Bool.or_eq_true, bne_iff_ne, bne_iff_ne]
    exact not_and_or.mp hbounded
  rw [isDateRange, List.any_cons, List.any_cons, List.any_nil, Bool.or_false,
    isDateBound_of_ofText? hl, isDateBound_of_ofText? hu, ← Bool.and_or_distrib_left, hsome,
    Bool.and_true]

end Bound

/-! ### Comparisons and ranges -/

section resolving
variable {dates : Bool} {l u text : String} {value v w : Scalar} {lower upper : Bound}

/-- An operator, blanks and a value are a comparison. -/
theorem resolve_compared (comparison : Comparison) {blanks : String}
    (hblanks : ∀ c ∈ blanks.toList, isBlank c = true) (h : Scalar.ofText? dates text = some value) :
    resolve (comparison.symbol ++ blanks ++ text) = .ok (.ordered (.compared comparison value)) := by
  have hbound := Scalar.isBoundText_of_ofText? h
  have hequals : (blanks.toList ++ text.toList).head? ≠ some '=' := by
    cases hlist : blanks.toList with
    | nil => exact hbound.head_ne_equals
    | cons c cs =>
        rw [List.cons_append, List.head?_cons, Ne, Option.some.injEq]
        rintro rfl
        cases hblanks '=' (by simp [hlist])
  have htrim : trim (blanks.toList ++ text.toList) = text.toList := by
    have htrim := hbound.trim_eq hblanks (List.forall_mem_nil _)
    rwa [List.append_nil] at htrim
  have hrange : Detector.range (comparison.symbol ++ blanks ++ text) = .ok none := by
    rw [Detector.range, between?_eq_none]
    cases comparison <;> simp [Comparison.symbol]
  have hcomparison : Detector.comparison (comparison.symbol ++ blanks ++ text) =
      .ok (some (.ordered (.compared comparison value))) := by
    rw [Detector.comparison, String.toList_append, String.toList_append, List.append_assoc,
      Detector.comparison?_symbol comparison hequals]
    dsimp only
    rw [htrim, String.ofList_toList, Scalar.ofBound?_of_ofText? h, Option.map_some]
  rw [resolve, detect, detectors, detectFirst, hrange]
  dsimp only
  rw [detectFirst, hcomparison]
  rfl

/-- The two texts between brackets are read as bounds, both as dates if one of them is a date. -/
theorem resolve_bounds (hl : IsBoundText l.toList) (hu : IsBoundText u.toList)
    (hstars : ¬(l = "*" ∧ u = "*")) :
    resolve ("[" ++ l ++ " TO " ++ u ++ "]") =
      .ok (((Bound.ofText? (isDateRange l u) l).bind fun lower =>
        (Bound.ofText? (isDateRange l u) u).map fun upper => .ordered (.range lower upper)).getD
          (.scalar (.string ("[" ++ l ++ " TO " ++ u ++ "]")))) := by
  have htext : ("[" ++ l ++ " TO " ++ u ++ "]").toList =
      '[' :: ((l.toList ++ ' ' :: 'T' :: 'O' :: ' ' :: u.toList) ++ [']']) := by
    simp
  have hempty : ¬(l = "" ∧ u = "") := by
    rintro ⟨rfl, -⟩
    exact hl.ne_nil rfl
  generalize hliteral : "[" ++ l ++ " TO " ++ u ++ "]" = literal at htext
  rw [resolve, detect, detectors, detectFirst, Detector.range, htext, between?_delimited]
  dsimp only
  rw [splitRange_bounds hl hu]
  dsimp only
  rw [String.ofList_toList, String.ofList_toList, if_neg hempty, if_neg hstars]
  cases Bound.ofText? (isDateRange l u) l <;> cases Bound.ofText? (isDateRange l u) u <;> rfl

theorem resolve_range (hl : Bound.ofText? dates l = some lower)
    (hu : Bound.ofText? dates u = some upper)
    (hbounded : ¬(lower = .unbounded ∧ upper = .unbounded)) :
    resolve ("[" ++ l ++ " TO " ++ u ++ "]") = .ok (.ordered (.range lower upper)) := by
  have hstars : ¬(l = "*" ∧ u = "*") := by
    rintro ⟨rfl, rfl⟩
    exact hbounded ⟨(Option.some.inj hl).symm, (Option.some.inj hu).symm⟩
  rw [resolve_bounds (Bound.isBoundText_of_ofText? hl) (Bound.isBoundText_of_ofText? hu) hstars,
    Bound.isDateRange_of_ofText? hl hu hbounded, hl, hu]
  rfl

/-- A number and a date are no bounds of one range. -/
theorem resolve_mixed (hl : Scalar.ofText? dates l = some v) (hu : Scalar.ofText? (!dates) u = some w) :
    resolve ("[" ++ l ++ " TO " ++ u ++ "]") =
      .ok (.scalar (.string ("[" ++ l ++ " TO " ++ u ++ "]"))) := by
  have hlstar := Scalar.ne_star_of_ofText? hl
  have hustar := Scalar.ne_star_of_ofText? hu
  -- One of the bounds is a date, so both are read as dates, and the number is none.
  have hdates : isDateRange l u = true := by
    rw [isDateRange, List.any_cons, List.any_cons, List.any_nil, Bool.or_false,
      Scalar.isDateBound_of_ofText? hl, Scalar.isDateBound_of_ofText? hu, bne_iff_ne.mpr hlstar,
      bne_iff_ne.mpr hustar]
    cases dates <;> rfl
  rw [resolve_bounds (Scalar.isBoundText_of_ofText? hl) (Scalar.isBoundText_of_ofText? hu)
    fun h => hlstar h.1, hdates, Bound.ofText?_eq true hlstar, Bound.ofText?_eq true hustar]
  cases dates with
  | true =>
      have hnone : Scalar.ofText? true u = none := Scalar.ofText?_not hu
      rw [hl, hnone]
      rfl
  | false =>
      have hnone : Scalar.ofText? true l = none := Scalar.ofText?_not hl
      rw [hnone]
      rfl

end resolving

/-! ### Literals alone and as bounds -/

/-- A number or a date is read off the literal that stands for it. -/
theorem exists_ofText?_of_resolve {literal : String} {value : Scalar}
    (h : resolve literal = .ok (.scalar value))
    (hkind : (Resolved.scalar value).kind ∈ [Kind.number, Kind.date]) :
    ∃ dates, Scalar.ofText? dates literal = some value := by
  cases resolve_isFrom h with
  | string => simp [Resolved.kind] at hkind
  | boolean _ => simp [Resolved.kind] at hkind
  | number hvalue => exact ⟨false, hvalue⟩
  | date hvalue => exact ⟨true, hvalue⟩

theorem kind_of_ofText? {dates : Bool} {text : String} {value : Scalar}
    (h : Scalar.ofText? dates text = some value) :
    (Resolved.scalar value).kind = if dates then .date else .number := by
  cases dates with
  | true =>
      obtain ⟨m, -, rfl⟩ := Option.map_eq_some_iff.mp h
      rfl
  | false =>
      obtain ⟨x, -, rfl⟩ := Option.map_eq_some_iff.mp h
      rfl

/-- **A literal is read the same alone and as a bound.**  A number or a date is the value of a
comparison and either end of a range.  Two of them are a range if they are of one kind, and else the
literal is a string. -/
theorem resolve_as_bound {s : String} {v : Scalar} (hs : resolve s = .ok (.scalar v))
    (hv : (Resolved.scalar v).kind ∈ [Kind.number, Kind.date]) :
    (∀ (comparison : Comparison) (blanks : String), (∀ c ∈ blanks.toList, isBlank c = true) →
      resolve (comparison.symbol ++ blanks ++ s) = .ok (.ordered (.compared comparison v))) ∧
    resolve ("[" ++ s ++ " TO *]") = .ok (.ordered (.range (.included v) .unbounded)) ∧
    resolve ("[* TO " ++ s ++ "]") = .ok (.ordered (.range .unbounded (.included v))) ∧
    ∀ (t : String) (w : Scalar), resolve t = .ok (.scalar w) →
      (Resolved.scalar w).kind ∈ [Kind.number, Kind.date] →
      resolve ("[" ++ s ++ " TO " ++ t ++ "]") =
        .ok (if (Resolved.scalar v).kind = (Resolved.scalar w).kind then
          .ordered (.range (.included v) (.included w))
        else .scalar (.string ("[" ++ s ++ " TO " ++ t ++ "]"))) := by
  obtain ⟨dates, hread⟩ := exists_ofText?_of_resolve hs hv
  have hbound := Bound.ofText?_included hread
  refine ⟨fun comparison blanks hblanks => resolve_compared comparison hblanks hread, ?_, ?_, ?_⟩
  · have hstar : "[" ++ s ++ " TO *]" = "[" ++ s ++ " TO " ++ "*" ++ "]" := by
      rw [← String.toList_inj]
      simp
    rw [hstar]
    exact resolve_range hbound rfl (by simp)
  · exact resolve_range (l := "*") rfl hbound (by simp)
  · intro t w ht hw
    obtain ⟨dates', hread'⟩ := exists_ofText?_of_resolve ht hw
    rw [kind_of_ofText? hread, kind_of_ofText? hread']
    by_cases hdates : dates' = dates
    · subst hdates
      rw [if_pos rfl]
      exact resolve_range hbound (Bound.ofText?_included hread') (by simp)
    · obtain rfl : dates' = !dates := Bool.eq_not.mpr hdates
      rw [if_neg (by cases dates <;> simp)]
      exact resolve_mixed hread hread'

/-- A day and a time with a blank between them, and a number with signs and an exponent. -/
theorem resolve_as_bound_spaced :
    ∃ v w, resolve "2023-01-15 10:30:00" = .ok (.scalar v) ∧ resolve "-2.5e+3" = .ok (.scalar w) ∧
      resolve "<\t 2023-01-15 10:30:00" = .ok (.ordered (.compared .less v)) ∧
      resolve "[2023-01-15 10:30:00 TO *]" = .ok (.ordered (.range (.included v) .unbounded)) ∧
      resolve "[* TO -2.5e+3]" = .ok (.ordered (.range .unbounded (.included w))) ∧
      resolve "[2023-01-15 10:30:00 TO -2.5e+3]" =
        .ok (.scalar (.string "[2023-01-15 10:30:00 TO -2.5e+3]")) := by
  have hdate : resolve "2023-01-15 10:30:00" = .ok (.scalar (.date (.ofUtc
      { year := 2023, month := 1, day := 15, hour := 10, minute := 30 }))) := by
    rw [resolve_of_unmarked (by simp)]
    cbv
  have hnumber : resolve "-2.5e+3" = .ok (.scalar (.number ⟨true, 4657715973212602368, by decide⟩)) := by
    rw [resolve_of_unmarked (by simp)]
    cbv
  obtain ⟨hcompared, hlower, -, hrange⟩ := resolve_as_bound hdate (by simp [Resolved.kind])
  obtain ⟨-, -, hupper, -⟩ := resolve_as_bound hnumber (by simp [Resolved.kind])
  have hblanks : ∀ c ∈ "\t ".toList, isBlank c = true := by
    intro c hc
    obtain rfl | rfl : c = '\t' ∨ c = ' ' := by simpa using hc
    · rfl
    · rfl
  exact ⟨_, _, hdate, hnumber, hcompared .less "\t " hblanks, hlower, hupper,
    hrange _ _ hnumber (by simp [Resolved.kind])⟩

end QueryFilter
