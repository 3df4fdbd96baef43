import QueryFilter.Proofs.Token.Reread

/-! # Field names in a text

A name that neither begins with a number nor is an operator is cut off a text as one word, in front
of its colon and of blanks, whatever comes behind the colon (`IsFieldName.scan`). -/

namespace QueryFilter

/-- A run of word characters that cannot be taken for anything else in front of a colon. -/
structure IsFieldName (name : String) : Prop where
  start : ∃ c ∈ name.toList.head?, isWordStart c = true ∧ c.isDigit = false ∧ c ≠ '<' ∧ c ≠ '>'
  chars : ∀ c ∈ name.toList, isWordChar c = true
  not_operator : name ∉ ["AND", "OR", "NOT"]

theorem Token.scan_nil : Token.scan [] = .ok [] := by cbv

theorem Token.scan_blanks {blanks : List Char} (h : ∀ c ∈ blanks, isBlank c = true)
    (cs : List Char) : Token.scan (blanks ++ cs) = Token.scan cs := by
  induction blanks with
  | nil => rfl
  | cons c blanks ih =>
      obtain ⟨hc, hblanks⟩ := List.forall_mem_cons.mp h
      rw [List.cons_append, Token.scan_cons_blank hc, ih hblanks]

namespace IsFieldName
variable {name : String}

theorem exists_start (h : IsFieldName name) :
    ∃ c cs, name.toList = c :: cs ∧
      isWordStart c = true ∧ c.isDigit = false ∧ c ≠ '<' ∧ c ≠ '>' := by
  obtain ⟨c, hhead, hc⟩ := h.start
  obtain ⟨cs, hname⟩ := List.head?_eq_some_iff.mp hhead
  exact ⟨c, cs, hname, hc⟩

theorem wordRun (h : IsFieldName name) :
    Reader.wordRun name.toList = some (name.toList, []) := by
  obtain ⟨c, cs, hname, hc, -⟩ := h.exists_start
  have hall : ∀ d ∈ cs, isWordChar d = true := fun d hd => h.chars d (by simp [hname, hd])
  rw [hname]
  simp [Reader.wordRun, Reader.seq, Reader.one, Reader.run, hc, List.takeWhile_eq_self_iff.mpr hall,
    List.dropWhile_eq_nil_iff.mpr hall]

theorem beginsWithDigit_eq (h : IsFieldName name) : beginsWithDigit name.toList = false := by
  obtain ⟨c, cs, hname, -, hdigit, hless, hgreater⟩ := h.exists_start
  rw [Bool.eq_false_iff, hname]
  intro hbegins
  obtain ⟨sign, hsign, d, rest, hd, heq⟩ := beginsWithDigit_iff.mp hbegins
  simp only [comparisonSigns, List.mem_cons, List.not_mem_nil, or_false] at hsign
  rcases hsign with rfl | rfl | rfl | rfl | rfl
  · exact hgreater (List.cons.inj heq).1
  · exact hless (List.cons.inj heq).1
  · exact hgreater (List.cons.inj heq).1
  · exact hless (List.cons.inj heq).1
  · rw [(List.cons.inj heq).1, hd] at hdigit
    cases hdigit

theorem ofWord_eq (h : IsFieldName name) : Token.ofWord name = .word name := by
  have hnot := h.not_operator
  simp only [List.mem_cons, List.not_mem_nil, or_false, not_or] at hnot
  rw [Token.ofWord, if_neg hnot.1, if_neg hnot.2.1, if_neg hnot.2.2]

/-- The name is read in front of anything that is no part of a word. -/
theorem read?_eq (h : IsFieldName name) {tail : List Char}
    (htail : ∀ c ∈ tail.head?, isWordChar c = false) :
    Token.read? (name.toList ++ tail) = some (.word name, tail) := by
  rw [Token.read?_word_of_beginsWithDigit h.wordRun h.beginsWithDigit_eq htail,
    String.ofList_toList, h.ofWord_eq]

/-- A name, blanks, a colon and blanks. -/
theorem scan (h : IsFieldName name) {before after : List Char}
    (hbefore : ∀ c ∈ before, isBlank c = true) (hafter : ∀ c ∈ after, isBlank c = true)
    (cs : List Char) :
    Token.scan (name.toList ++ (before ++ ':' :: (after ++ cs))) =
      (Token.scan cs).map fun tokens => .word name :: .colon :: tokens := by
  have htail : ∀ c ∈ (before ++ ':' :: (after ++ cs)).head?, isWordChar c = false := by
    intro c hc
    cases before with
    | nil =>
        cases hc
        rfl
    | cons d before =>
        cases hc
        rw [isWordChar, hbefore c (by simp)]
        rfl
  have hblank : trimStart (name.toList ++ (before ++ ':' :: (after ++ cs))) =
      name.toList ++ (before ++ ':' :: (after ++ cs)) := by
    obtain ⟨c, more, hname, hc, -⟩ := h.exists_start
    have hc : isBlank c = false := by
      simp only [isWordStart, isWordChar, Bool.and_eq_true, Bool.not_eq_true',
        Bool.or_eq_false_iff] at hc
      simp only [hc]
    rw [hname, List.cons_append, trimStart_cons, hc]
    rfl
  have hcolon : Token.scan (':' :: (after ++ cs)) = (Token.scan (after ++ cs)).map (.colon :: ·) :=
    Token.scan_of_read? (Token.read?_colon _)
  rw [Token.scan_of_read? (hblank ▸ h.read?_eq htail), Token.scan_blanks hbefore, hcolon,
    Token.scan_blanks hafter]
  cases Token.scan cs <;> rfl

end IsFieldName

end QueryFilter
