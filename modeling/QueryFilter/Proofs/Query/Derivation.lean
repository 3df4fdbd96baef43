import QueryFilter.Proofs.Query.Proper
import QueryFilter.Query.Parser

/-! # Derivations

`Derives g depth tokens part rest` says that under the grammar `g` the part of a query stands at the
beginning of the tokens, inside `depth` groups and negations, and that `rest` comes after it.  It
has one rule for each way in which the readers go on, and a rule holds whenever its readers would
take that way: the longest branch and the longest query are derived, never a shorter one.

`derives_iff` is the main statement: the readers find exactly what can be derived.  What holds of
everything that is read is then shown by induction on derivations. -/

namespace QueryFilter

/-- A part of a query. -/
inductive Part where
  | operand (operand : Operand)
  | branch (branch : Branch)
  | query (query : Query)

/-- The part stands at the beginning of the tokens, and the rest comes after it. -/
inductive Derives (g : Grammar) : Nat → List Token → Part → List Token → Prop
  | not {depth : Nat} {tokens rest : List Token} {operand : Operand}
      (follows : operandFollows tokens = true) (shallow : depth < g.maxDepth)
      (inner : Derives g (depth + 1) tokens (.operand operand) rest) :
      Derives g depth (.not :: tokens) (.operand (.not operand)) rest
  | group {depth : Nat} {tokens rest : List Token} {query : Query}
      (shallow : depth < g.maxDepth)
      (inner : Derives g (depth + 1) tokens (.query query) (.closeParen :: rest)) :
      Derives g depth (.openParen :: tokens) (.operand (.group query)) rest
  | leaf {depth : Nat} {tokens rest : List Token} {operand : Operand}
      (read : readLeaf tokens = .ok (operand, rest)) :
      Derives g depth tokens (.operand operand) rest
  /-- The branch ends where neither `AND` nor, with the implicit conjunction, an operand follows. -/
  | last {depth : Nat} {tokens rest : List Token} {operand : Operand}
      (first : Derives g depth tokens (.operand operand) rest)
      (noAnd : rest.head? ≠ some .and)
      (ends : operandFollows rest = true → g.implicitConjunction = false) :
      Derives g depth tokens (.branch [operand]) rest
  | and {depth : Nat} {tokens after rest : List Token} {operand : Operand} {operands : Branch}
      (first : Derives g depth tokens (.operand operand) (.and :: after))
      (follows : operandFollows after = true)
      (more : Derives g depth after (.branch operands) rest) :
      Derives g depth tokens (.branch (operand :: operands)) rest
  | next {depth : Nat} {tokens after rest : List Token} {operand : Operand} {operands : Branch}
      (first : Derives g depth tokens (.operand operand) after)
      (follows : operandFollows after = true) (implicit : g.implicitConjunction = true)
      (more : Derives g depth after (.branch operands) rest) :
      Derives g depth tokens (.branch (operand :: operands)) rest
  | single {depth : Nat} {tokens rest : List Token} {branch : Branch}
      (first : Derives g depth tokens (.branch branch) rest)
      (noOr : rest.head? ≠ some .or) :
      Derives g depth tokens (.query [branch]) rest
  | or {depth : Nat} {tokens after rest : List Token} {branch : Branch} {branches : Query}
      (first : Derives g depth tokens (.branch branch) (.or :: after))
      (follows : operandFollows after = true)
      (more : Derives g depth after (.query branches) rest) :
      Derives g depth tokens (.query (branch :: branches)) rest

/-- The reader of the part reads it off the tokens. -/
def Part.IsRead (g : Grammar) (depth : Nat) (tokens : List Token) (rest : List Token) :
    Part → Prop
  | .operand o => readOperand g depth tokens = .ok (o, rest)
  | .branch b => readBranch g depth tokens = .ok (b, rest)
  | .query q => readQuery g depth tokens = .ok (q, rest)

variable {g : Grammar} {depth : Nat} {tokens rest : List Token}

/-- Every part takes at least one token. -/
theorem Derives.length_lt {part : Part} (h : Derives g depth tokens part rest) :
    rest.length < tokens.length := by
  induction h with
  | not _ _ _ ih => simp only [List.length_cons]; omega
  | group _ _ ih => simp only [List.length_cons] at ih ⊢; omega
  | leaf read => exact length_readLeaf_lt read
  | last _ _ _ ih => exact ih
  | and _ _ _ ih ih' => simp only [List.length_cons] at ih; omega
  | next _ _ _ _ ih ih' => omega
  | single _ _ ih => exact ih
  | or _ _ _ ih ih' => simp only [List.length_cons] at ih; omega

theorem Derives.isEmpty_eq_false {part : Part} (h : Derives g depth tokens part rest) :
    tokens.isEmpty = false := by
  have hlt := h.length_lt
  cases tokens with
  | nil => simp at hlt
  | cons => rfl

/-! ### Behind the first part -/

section behind
variable {after : List Token} {error : SyntaxError}

theorem readBranch_error (h : readOperand g depth tokens = .error error) :
    readBranch g depth tokens = .error error := by
  rw [readBranch_eq, h]

theorem readBranch_and {operand : Operand}
    (h : readOperand g depth tokens = .ok (operand, .and :: after))
    (follows : operandFollows after = true) :
    readBranch g depth tokens =
      (readBranch g depth after).map fun (operands, rest) => (operand :: operands, rest) := by
  rw [readBranch_eq, h]
  simp only [follows, if_true]

theorem readBranch_next {operand : Operand}
    (h : readOperand g depth tokens = .ok (operand, after))
    (follows : operandFollows after = true) (implicit : g.implicitConjunction = true) :
    readBranch g depth tokens =
      (readBranch g depth after).map fun (operands, rest) => (operand :: operands, rest) := by
  rw [readBranch_eq, h]
  cases after with
  | nil => cases follows
  | cons token after =>
      cases token
      case and => cases follows
      case or => cases follows
      case closeParen => cases follows
      all_goals simp only [implicit, if_true]

/-- After the last operand of a branch the reader stops. -/
theorem readBranch_last {operand : Operand} (h : readOperand g depth tokens = .ok (operand, rest))
    (noAnd : rest.head? ≠ some .and)
    (ends : operandFollows rest = true → g.implicitConjunction = false) :
    readBranch g depth tokens = .ok ([operand], rest) := by
  rw [readBranch_eq, h]
  cases rest with
  | nil => rfl
  | cons token rest =>
      cases token
      case and => simp at noAnd
      case or => rfl
      case closeParen => rfl
      all_goals simp only [ends rfl, Bool.false_eq_true, if_false]

/-- Behind its first operand a branch goes on after an `AND` or without one, or it ends, or its
reader fails at an `AND` with nothing to join. -/
theorem readBranch_cases {operand : Operand}
    (h : readOperand g depth tokens = .ok (operand, rest)) :
    (∃ after, rest = .and :: after ∧ operandFollows after = true ∧
      readBranch g depth tokens =
        (readBranch g depth after).map fun (operands, rest) => (operand :: operands, rest)) ∨
    (operandFollows rest = true ∧ g.implicitConjunction = true ∧
      readBranch g depth tokens =
        (readBranch g depth rest).map fun (operands, rest) => (operand :: operands, rest)) ∨
    (rest.head? ≠ some .and ∧ (operandFollows rest = true → g.implicitConjunction = false) ∧
      readBranch g depth tokens = .ok ([operand], rest)) ∨
    readBranch g depth tokens = .error (.danglingOperator Token.and.text) := by
  by_cases hand : rest.head? = some .and
  · obtain ⟨after, rfl⟩ := List.head?_eq_some_iff.mp hand
    by_cases follows : operandFollows after = true
    · exact .inl ⟨after, rfl, follows, readBranch_and h follows⟩
    · refine .inr (.inr (.inr ?_))
      rw [readBranch_eq, h]
      exact if_neg follows
  by_cases hnext : operandFollows rest = true ∧ g.implicitConjunction = true
  · exact .inr (.inl ⟨hnext.1, hnext.2, readBranch_next h hnext.1 hnext.2⟩)
  · have ends : operandFollows rest = true → g.implicitConjunction = false := by
      intro follows
      simpa [follows] using hnext
    exact .inr (.inr (.inl ⟨hand, ends, readBranch_last h hand ends⟩))

theorem readQuery_error (h : readBranch g depth tokens = .error error) :
    readQuery g depth tokens = .error error := by
  rw [readQuery_eq, h]

theorem readQuery_or {branch : Branch}
    (h : readBranch g depth tokens = .ok (branch, .or :: after))
    (follows : operandFollows after = true) :
    readQuery g depth tokens =
      (readQuery g depth after).map fun (branches, rest) => (branch :: branches, rest) := by
  rw [readQuery_eq, h]
  simp only [follows, if_true]

theorem readQuery_single {branch : Branch} (h : readBranch g depth tokens = .ok (branch, rest))
    (noOr : rest.head? ≠ some .or) : readQuery g depth tokens = .ok ([branch], rest) := by
  rw [readQuery_eq, h]
  cases rest with
  | nil => rfl
  | cons token rest =>
      cases token
      case or => simp at noOr
      all_goals rfl

/-- Behind its first branch a query goes on after an `OR`, or it ends, or its reader fails at an
`OR` with nothing to join. -/
theorem readQuery_cases {branch : Branch} (h : readBranch g depth tokens = .ok (branch, rest)) :
    (∃ after, rest = .or :: after ∧ operandFollows after = true ∧
      readQuery g depth tokens =
        (readQuery g depth after).map fun (branches, rest) => (branch :: branches, rest)) ∨
    (rest.head? ≠ some .or ∧ readQuery g depth tokens = .ok ([branch], rest)) ∨
    readQuery g depth tokens = .error (.danglingOperator Token.or.text) := by
  by_cases hor : rest.head? = some .or
  · obtain ⟨after, rfl⟩ := List.head?_eq_some_iff.mp hor
    by_cases follows : operandFollows after = true
    · exact .inl ⟨after, rfl, follows, readQuery_or h follows⟩
    · refine .inr (.inr ?_)
      rw [readQuery_eq, h]
      exact if_neg follows
  · exact .inr (.inl ⟨hor, readQuery_single h hor⟩)

end behind

/-! ### What is derived is read -/

theorem readOperand_of_readLeaf {operand : Operand} (h : readLeaf tokens = .ok (operand, rest)) :
    readOperand g depth tokens = .ok (operand, rest) := by
  rw [readOperand_leaf, h]
  · rintro after rfl
    cases h
  · rintro after rfl
    cases h

theorem Derives.isRead {part : Part} (h : Derives g depth tokens part rest) :
    part.IsRead g depth tokens rest := by
  induction h with
  | not follows shallow _ ih =>
      simp only [Part.IsRead] at ih ⊢
      rw [readOperand_not, if_pos follows, if_pos shallow, ih]
      rfl
  | group shallow inner ih =>
      simp only [Part.IsRead] at ih ⊢
      rw [readOperand_openParen, inner.isEmpty_eq_false, if_neg Bool.false_ne_true, if_pos shallow,
        ih]
  | leaf read => exact readOperand_of_readLeaf read
  | last _ noAnd ends ih => exact readBranch_last ih noAnd ends
  | and _ follows _ ih ih' =>
      simp only [Part.IsRead] at ih ih' ⊢
      rw [readBranch_and ih follows, ih']
      rfl
  | next _ follows implicit _ ih ih' =>
      simp only [Part.IsRead] at ih ih' ⊢
      rw [readBranch_next ih follows implicit, ih']
      rfl
  | single _ noOr ih => exact readQuery_single ih noOr
  | or _ follows _ ih ih' =>
      simp only [Part.IsRead] at ih ih' ⊢
      rw [readQuery_or ih follows, ih']
      rfl

/-! ### What is read is derived -/

/-- What is nested in a negation or a group has fewer tokens. -/
theorem derives_of_readOperand {operand : Operand}
    (hoperand : ∀ depth after operand rest, after.length < tokens.length →
      readOperand g depth after = .ok (operand, rest) →
        Derives g depth after (.operand operand) rest)
    (hquery : ∀ depth after query rest, after.length < tokens.length →
      readQuery g depth after = .ok (query, rest) → Derives g depth after (.query query) rest)
    (h : readOperand g depth tokens = .ok (operand, rest)) :
    Derives g depth tokens (.operand operand) rest := by
  by_cases hnot : ∃ after, tokens = .not :: after
  · obtain ⟨after, rfl⟩ := hnot
    rw [readOperand_not] at h
    split at h
    · next follows =>
      split at h
      · next shallow =>
        obtain ⟨⟨inner, rest'⟩, hinner, he⟩ := map_eq_ok_iff.mp h
        cases he
        exact .not follows shallow (hoperand _ _ _ _ (by simp) hinner)
      · cases h
    · cases h
  by_cases hopen : ∃ after, tokens = .openParen :: after
  · obtain ⟨after, rfl⟩ := hopen
    rw [readOperand_openParen] at h
    split at h
    · cases h
    · split at h
      · next shallow =>
        split at h
        · cases h
        · next query rest' hinner =>
          cases h
          exact .group shallow (hquery _ _ _ _ (by simp) hinner)
        · cases h
      · cases h
  · rw [readOperand_leaf g depth (fun after e => hnot ⟨after, e⟩)
      fun after e => hopen ⟨after, e⟩] at h
    exact .leaf h

/-- After its first operand a branch has fewer tokens. -/
theorem derives_of_readBranch {branch : Branch}
    (hoperand : ∀ operand rest, readOperand g depth tokens = .ok (operand, rest) →
      Derives g depth tokens (.operand operand) rest)
    (hbranch : ∀ after branch rest, after.length < tokens.length →
      readBranch g depth after = .ok (branch, rest) → Derives g depth after (.branch branch) rest)
    (h : readBranch g depth tokens = .ok (branch, rest)) :
    Derives g depth tokens (.branch branch) rest := by
  cases hread : readOperand g depth tokens with
  | error e =>
      rw [readBranch_error hread] at h
      cases h
  | ok p =>
      obtain ⟨operand, after⟩ := p
      have first := hoperand _ _ hread
      have hlen := first.length_lt
      rcases readBranch_cases hread with
        ⟨after', rfl, follows, heq⟩ | ⟨follows, implicit, heq⟩ | ⟨noAnd, ends, heq⟩ | heq
      all_goals rw [heq] at h
      · obtain ⟨⟨operands, rest'⟩, hmore, he⟩ := map_eq_ok_iff.mp h
        cases he
        rw [List.length_cons] at hlen
        exact .and first follows (hbranch _ _ _ (by omega) hmore)
      · obtain ⟨⟨operands, rest'⟩, hmore, he⟩ := map_eq_ok_iff.mp h
        cases he
        exact .next first follows implicit (hbranch _ _ _ hlen hmore)
      · cases h
        exact .last first noAnd ends
      · cases h

/-- After its first branch a query has fewer tokens. -/
theorem derives_of_readQuery {query : Query}
    (hbranch : ∀ branch rest, readBranch g depth tokens = .ok (branch, rest) →
      Derives g depth tokens (.branch branch) rest)
    (hquery : ∀ after query rest, after.length < tokens.length →
      readQuery g depth after = .ok (query, rest) → Derives g depth after (.query query) rest)
    (h : readQuery g depth tokens = .ok (query, rest)) :
    Derives g depth tokens (.query query) rest := by
  cases hread : readBranch g depth tokens with
  | error e =>
      rw [readQuery_error hread] at h
      cases h
  | ok p =>
      obtain ⟨branch, after⟩ := p
      have first := hbranch _ _ hread
      have hlen := first.length_lt
      rcases readQuery_cases hread with ⟨after', rfl, follows, heq⟩ | ⟨noOr, heq⟩ | heq
      all_goals rw [heq] at h
      · obtain ⟨⟨branches, rest'⟩, hmore, he⟩ := map_eq_ok_iff.mp h
        cases he
        rw [List.length_cons] at hlen
        exact .or first follows (hquery _ _ _ (by omega) hmore)
      · cases h
        exact .single first noOr
      · cases h

/-- All three readers at once, by induction on the number of tokens. -/
theorem Part.IsRead.derives {part : Part} (h : part.IsRead g depth tokens rest) :
    Derives g depth tokens part rest := by
  induction hn : tokens.length using Nat.strongRecOn generalizing depth tokens part rest with
  | ind n ih =>
      subst hn
      have ih : ∀ depth after part rest, after.length < tokens.length →
          Part.IsRead g depth after rest part → Derives g depth after part rest :=
        fun _ _ _ _ hlt h => ih _ hlt h rfl
      -- A query and its first branch start at the same token as their first operand, where the
      -- induction hypothesis says nothing, so the operand comes first.
      have hoperand : ∀ operand rest, readOperand g depth tokens = .ok (operand, rest) →
          Derives g depth tokens (.operand operand) rest := by
        intro operand rest
        apply derives_of_readOperand
        · exact fun depth after operand rest hlt h => ih _ _ (.operand operand) _ hlt h
        · exact fun depth after query rest hlt h => ih _ _ (.query query) _ hlt h
      have hbranch : ∀ branch rest, readBranch g depth tokens = .ok (branch, rest) →
          Derives g depth tokens (.branch branch) rest := by
        intro branch rest
        apply derives_of_readBranch hoperand
        exact fun after branch rest hlt h => ih _ _ (.branch branch) _ hlt h
      cases part with
      | operand operand => exact hoperand _ _ h
      | branch branch => exact hbranch _ _ h
      | query query =>
          apply derives_of_readQuery hbranch _ h
          exact fun after query rest hlt h => ih _ _ (.query query) _ hlt h

/-- **The readers find exactly what can be derived.** -/
theorem derives_iff {part : Part} :
    Derives g depth tokens part rest ↔ part.IsRead g depth tokens rest :=
  ⟨Derives.isRead, Part.IsRead.derives⟩

/-! ### Whole queries -/

theorem ofTokens_eq_ok_iff {query : Query} :
    Query.ofTokens g tokens = .ok query ↔ Derives g 0 tokens (.query query) [] := by
  rw [derives_iff, Part.IsRead, Query.ofTokens]
  constructor
  · intro h
    split at h
    · cases h
    · next hread => cases h; exact hread
    · cases h
    · cases h
  · intro h
    rw [h]

theorem parse_eq_ok_iff {text : String} {query : Query} :
    Query.parse g text = .ok query ↔
      ∃ tokens, tokenize text = .ok tokens ∧ Derives g 0 tokens (.query query) [] := by
  unfold Query.parse
  cases tokenize text with
  | error e => simp
  | ok tokens => simp [ofTokens_eq_ok_iff]

end QueryFilter
