import QueryFilter.Proofs.Query.Parentheses

/-! # The same text under another grammar

The settings of a grammar restrict which texts are queries, and do not change the query that a text
is.  A text that is a query under one grammar is the same query under any other that allows its
depth and does not ask for more `AND`s, and under one that does not allow its depth the text is
refused for its depth and for nothing else (`parse_of_grammar`).

Both halves go along the derivation under the first grammar: it is one under the second
(`Derives.withGrammar`), or the second meets its limit before anything else can go wrong
(`Derives.tooDeep`). -/

namespace QueryFilter

/-! ### Where a part ends -/

/-- No operand comes after a branch or a query.  What comes after an operand does not matter, since
the operand ends of itself. -/
def Part.IsClosed (rest : List Token) : Part → Prop
  | .operand _ => True
  | .branch _ => operandFollows rest = false
  | .query _ => operandFollows rest = false

/-- The reader of the part fails on the tokens with the error. -/
def Part.FailsWith (g : Grammar) (depth : Nat) (tokens : List Token) (error : SyntaxError) :
    Part → Prop
  | .operand _ => readOperand g depth tokens = .error error
  | .branch _ => readBranch g depth tokens = .error error
  | .query _ => readQuery g depth tokens = .error error

/-- Nothing is nested in a leaf. -/
theorem readLeaf_depth {tokens rest : List Token} {operand : Operand}
    (h : readLeaf tokens = .ok (operand, rest)) : operand.depth = 0 := by
  rcases readLeaf_cases h with ⟨field, value, after, -, -, -, rfl⟩ | ⟨word, words, -, rfl⟩ |
    ⟨text, -, rfl⟩ | ⟨quote, text, -, rfl⟩
  · rfl
  · rfl
  · rfl
  · rfl

/-! ### Two grammars -/

section grammars
variable {g g' : Grammar} {depth : Nat} {tokens rest : List Token}

/-- What is derived is derived under any grammar that leaves room for it, and that takes operands
next to each other if the first one does.  A branch that the first grammar ends where an operand
follows is not closed: such a branch is no part of a whole query. -/
theorem Derives.withGrammar
    (himplicit : g.implicitConjunction = true → g'.implicitConjunction = true) {part : Part}
    (h : Derives g depth tokens part rest) :
    ∀ depth', part.IsClosed rest → depth' + part.depth ≤ g'.maxDepth →
      Derives g' depth' tokens part rest := by
  induction h with
  | not follows _ _ ih =>
      intro depth' _ hdepth
      simp only [Part.depth, Operand.depth] at hdepth ih
      exact .not follows (by omega) (ih (depth' + 1) trivial (by omega))
  | group _ _ ih =>
      intro depth' _ hdepth
      simp only [Part.depth, Operand.depth] at hdepth ih
      exact .group (by omega) (ih (depth' + 1) rfl (by omega))
  | leaf read =>
      intro depth' _ _
      exact .leaf read
  | last _ noAnd _ ih =>
      intro depth' hclosed hdepth
      simp only [Part.depth, Branch.depth] at hdepth ih
      simp only [Part.IsClosed] at hclosed
      -- Here alone a grammar with the implicit conjunction could read on where the first one ends.
      exact .last (ih depth' trivial (by omega)) noAnd (by simp [hclosed])
  | and _ follows _ ih ih' =>
      intro depth' hclosed hdepth
      simp only [Part.depth, Branch.depth] at hdepth ih ih'
      exact .and (ih depth' trivial (by omega)) follows (ih' depth' hclosed (by omega))
  | next _ follows implicit _ ih ih' =>
      intro depth' hclosed hdepth
      simp only [Part.depth, Branch.depth] at hdepth ih ih'
      exact .next (ih depth' trivial (by omega)) follows (himplicit implicit)
        (ih' depth' hclosed (by omega))
  | single _ noOr ih =>
      intro depth' hclosed hdepth
      simp only [Part.depth, Query.depth] at hdepth ih
      exact .single (ih depth' hclosed (by omega)) noOr
  | or _ follows _ ih ih' =>
      intro depth' hclosed hdepth
      simp only [Part.depth, Query.depth] at hdepth ih ih'
      exact .or (ih depth' rfl (by omega)) follows (ih' depth' hclosed (by omega))

/-- The first part of a longer one either meets the limit of the other grammar, or fits in it and
is read. -/
theorem Derives.failsWith_or_isRead
    (himplicit : g.implicitConjunction = true → g'.implicitConjunction = true) {part : Part}
    {depth' : Nat} {error : SyntaxError} (h : Derives g depth tokens part rest)
    (hclosed : part.IsClosed rest)
    (hfails : g'.maxDepth < depth' + part.depth → part.FailsWith g' depth' tokens error) :
    part.FailsWith g' depth' tokens error ∨
      depth' + part.depth ≤ g'.maxDepth ∧ part.IsRead g' depth' tokens rest := by
  rcases Nat.lt_or_ge g'.maxDepth (depth' + part.depth) with hlt | hfits
  · exact .inl (hfails hlt)
  · exact .inr ⟨hfits, (h.withGrammar himplicit depth' hclosed hfits).isRead⟩

/-- Where a derived part is too deep for a grammar, its readers fail at the limit.  They go from
left to right, so the first operand of a branch either meets the limit, or is derived and the rest
of the branch meets it; and so for the branches of a query. -/
theorem Derives.tooDeep
    (himplicit : g.implicitConjunction = true → g'.implicitConjunction = true) {part : Part}
    (h : Derives g depth tokens part rest) :
    ∀ depth', part.IsClosed rest → depth' ≤ g'.maxDepth → g'.maxDepth < depth' + part.depth →
      part.FailsWith g' depth' tokens (.tooDeep g'.maxDepth) := by
  induction h with
  | not follows _ _ ih =>
      intro depth' _ hle hlt
      simp only [Part.depth, Operand.depth, Part.FailsWith] at hlt ih ⊢
      rw [readOperand_not, if_pos follows]
      split
      · next shallow =>
        rw [ih (depth' + 1) trivial (by omega) (by omega)]
        rfl
      · rfl
  | group _ inner ih =>
      intro depth' _ hle hlt
      simp only [Part.depth, Operand.depth, Part.FailsWith] at hlt ih ⊢
      rw [readOperand_openParen, inner.isEmpty_eq_false, if_neg Bool.false_ne_true]
      split
      · next shallow => rw [ih (depth' + 1) rfl (by omega) (by omega)]
      · rfl
  | leaf read =>
      intro depth' _ hle hlt
      rw [Part.depth, readLeaf_depth read] at hlt
      omega
  | last _ _ _ ih =>
      intro depth' _ hle hlt
      simp only [Part.depth, Branch.depth] at hlt ih
      exact readBranch_error (ih depth' trivial hle (by omega))
  | and first follows _ ih ih' =>
      intro depth' hclosed hle hlt
      rcases first.failsWith_or_isRead himplicit trivial (ih depth' trivial hle) with
        hfails | ⟨hfits, hread⟩
      · exact readBranch_error hfails
      · simp only [Part.depth, Branch.depth] at hlt hfits ih'
        have hmore := ih' depth' hclosed hle (by omega)
        simp only [Part.IsRead, Part.FailsWith] at hread hmore ⊢
        rw [readBranch_and hread follows, hmore]
        rfl
  | next first follows implicit _ ih ih' =>
      intro depth' hclosed hle hlt
      rcases first.failsWith_or_isRead himplicit trivial (ih depth' trivial hle) with
        hfails | ⟨hfits, hread⟩
      · exact readBranch_error hfails
      · simp only [Part.depth, Branch.depth] at hlt hfits ih'
        have hmore := ih' depth' hclosed hle (by omega)
        simp only [Part.IsRead, Part.FailsWith] at hread hmore ⊢
        rw [readBranch_next hread follows (himplicit implicit), hmore]
        rfl
  | single _ _ ih =>
      intro depth' hclosed hle hlt
      simp only [Part.depth, Query.depth] at hlt ih
      exact readQuery_error (ih depth' hclosed hle (by omega))
  | or first follows _ ih ih' =>
      intro depth' hclosed hle hlt
      rcases first.failsWith_or_isRead himplicit rfl (ih depth' rfl hle) with
        hfails | ⟨hfits, hread⟩
      · exact readQuery_error hfails
      · simp only [Part.depth, Query.depth] at hlt hfits ih'
        have hmore := ih' depth' hclosed hle (by omega)
        simp only [Part.IsRead, Part.FailsWith] at hread hmore ⊢
        rw [readQuery_or hread follows, hmore]
        rfl

end grammars

/-! ### Whole queries -/

/-- **Grammars restrict, and change nothing.**  A text that is a query is the same query under any
other nesting limit, with or without the implicit conjunction if it does not need it, as long as the
limit is not below its depth; otherwise it is too deep. -/
theorem parse_of_grammar {g g' : Grammar} {text : String} {query : Query}
    (h : Query.parse g text = .ok query)
    (himplicit : g'.implicitConjunction = g.implicitConjunction ∨ g'.implicitConjunction = true) :
    Query.parse g' text =
      if query.depth ≤ g'.maxDepth then .ok query else .error (.tooDeep g'.maxDepth) := by
  have himplicit : g.implicitConjunction = true → g'.implicitConjunction = true := by
    intro hg
    rcases himplicit with heq | htrue
    · rw [heq, hg]
    · exact htrue
  obtain ⟨tokens, htokens, hderives⟩ := parse_eq_ok_iff.mp h
  split
  · next hdepth =>
    have hfits : 0 + query.depth ≤ g'.maxDepth := by omega
    exact parse_eq_ok_iff.mpr ⟨tokens, htokens, hderives.withGrammar himplicit 0 rfl hfits⟩
  · next hdepth =>
    have hdeep : g'.maxDepth < 0 + query.depth := by omega
    have hfails := hderives.tooDeep himplicit 0 rfl (Nat.zero_le _) hdeep
    simp only [Part.FailsWith] at hfails
    simp only [Query.parse, htokens, Query.ofTokens, hfails]

/-- Three levels: a negation, a group in it and a group in that one. -/
theorem parse_of_grammar_nested :
    ∃ query : Query,
      query = [[.not (.group [[.field ⟨["a"]⟩ (.words ["1"]),
        .group [[.text (.words ["b"])], [.text (.words ["c"])]]]])]] ∧
      Query.parse { implicitConjunction := false } "NOT (a:1 AND (b OR c))" = .ok query ∧
      query.depth = 3 ∧
      Query.parse { maxDepth := 3 } "NOT (a:1 AND (b OR c))" = .ok query ∧
      Query.parse { maxDepth := 2 } "NOT (a:1 AND (b OR c))" = .error (.tooDeep 2) := by
  refine ⟨_, rfl, ?_⟩
  have hparse : Query.parse { implicitConjunction := false } "NOT (a:1 AND (b OR c))" =
      .ok [[.not (.group [[.field ⟨["a"]⟩ (.words ["1"]),
        .group [[.text (.words ["b"])], [.text (.words ["c"])]]]])]] := by
    cbv
  exact ⟨hparse, rfl, parse_of_grammar hparse (.inr rfl), parse_of_grammar hparse (.inr rfl)⟩

end QueryFilter
