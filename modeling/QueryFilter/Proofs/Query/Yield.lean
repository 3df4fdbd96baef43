import Mathlib
import QueryFilter.Proofs.Query.Derivation
import QueryFilter.Proofs.Token.Spelling

/-! # The tokens of a query

`Query.tokens` writes a query out as tokens, with every operator in its place.  The parser takes
the tokens of a text in this order, loses none and uses none twice: the tokens of a text that was
parsed are those of the query that was found, except that an `AND` may be missing where operands
stand next to each other (`parse_tokens`).  So the tree is the one that the precedence of the
operators asks for.

The same induction on derivations shows that the parser finds proper queries only
(`parse_proper`). -/

namespace QueryFilter

/-! ### Writing a query as tokens -/

/-- The tokens of the value after the colon. -/
def Value.tokens : Value → List Token
  | .words ws => ws.map .word
  | .quoted quote text => [.quoted quote text]
  | .literal form text => [.literal form text]

/-- The tokens of the text. -/
def FreeText.tokens : FreeText → List Token
  | .words ws => ws.map Token.ofFreeWord
  | .quoted quote text => [.quoted quote text]
  | .regex text => [.literal .regex text]

mutual

/-- The tokens of the operand. -/
def Operand.tokens : Operand → List Token
  | .field path value => .word path.text :: .colon :: value.tokens
  | .text text => text.tokens
  | .not operand => .not :: operand.tokens
  | .group branches => .openParen :: (Query.tokens branches ++ [.closeParen])

/-- The tokens of the operands, an `AND` between two of them. -/
def Branch.tokens : Branch → List Token
  | [] => []
  | [operand] => operand.tokens
  | operand :: operands => operand.tokens ++ .and :: Branch.tokens operands

/-- The tokens of the branches, an `OR` between two of them. -/
def Query.tokens : Query → List Token
  | [] => []
  | [branch] => Branch.tokens branch
  | branch :: branches => Branch.tokens branch ++ .or :: Query.tokens branches

end

/-- The tokens of the part. -/
def Part.tokens : Part → List Token
  | .operand o => o.tokens
  | .branch b => b.tokens
  | .query q => q.tokens

theorem Branch.tokens_cons (operand : Operand) {operands : Branch} (h : operands ≠ []) :
    Branch.tokens (operand :: operands) = operand.tokens ++ .and :: Branch.tokens operands := by
  cases operands with
  | nil => exact absurd rfl h
  | cons second operands => rfl

theorem Query.tokens_cons (branch : Branch) {branches : Query} (h : branches ≠ []) :
    Query.tokens (branch :: branches) = branch.tokens ++ .or :: Query.tokens branches := by
  cases branches with
  | nil => exact absurd rfl h
  | cons second branches => rfl

/-! ### Leaving out operators -/

/-- The first list is the second without some of its `AND`s. -/
inductive Thinned : List Token → List Token → Prop
  | nil : Thinned [] []
  | keep {tokens full : List Token} (token : Token) (h : Thinned tokens full) :
      Thinned (token :: tokens) (token :: full)
  | drop {tokens full : List Token} (h : Thinned tokens full) : Thinned tokens (.and :: full)

namespace Thinned

theorem refl (tokens : List Token) : Thinned tokens tokens := by
  induction tokens with
  | nil => exact .nil
  | cons token tokens ih => exact .keep token ih

theorem append {a a' b b' : List Token} (h : Thinned a b) (h' : Thinned a' b') :
    Thinned (a ++ a') (b ++ b') := by
  induction h with
  | nil => exact h'
  | keep token _ ih => exact .keep token ih
  | drop _ ih => exact .drop ih

end Thinned

/-- The tokens are the full list, without some of its `AND`s if the grammar can do without. -/
def Grammar.Spells (g : Grammar) (tokens full : List Token) : Prop :=
  Thinned tokens full ∧ (g.implicitConjunction = false → tokens = full)

namespace Grammar.Spells

variable {g : Grammar} {a a' b b' : List Token}

theorem refl (tokens : List Token) : g.Spells tokens tokens := ⟨.refl tokens, fun _ => rfl⟩

theorem append (h : g.Spells a b) (h' : g.Spells a' b') : g.Spells (a ++ a') (b ++ b') :=
  ⟨h.1.append h'.1, fun e => by rw [h.2 e, h'.2 e]⟩

theorem cons (token : Token) (h : g.Spells a b) : g.Spells (token :: a) (token :: b) :=
  (refl [token]).append h

theorem dropAnd (he : g.implicitConjunction = true) (h : g.Spells a b) :
    g.Spells a (.and :: b) :=
  ⟨.drop h.1, fun e => by rw [he] at e; cases e⟩

end Grammar.Spells

/-! ### Leaves -/

section leaves
variable {tokens rest : List Token}

theorem Path.text_ofText (field : String) : (Path.ofText field).text = field := by
  apply String.toList_injective
  rw [Path.text, Path.ofText, String.toList_intercalate, List.map_map]
  have hid : (String.toList ∘ String.ofList) = id := by
    funext cs
    simp
  rw [hid, List.map_id]
  exact List.intercalate_splitOn '.'

theorem Path.segments_ofText_ne_nil (field : String) : (Path.ofText field).segments ≠ [] := by
  simp [Path.ofText, List.splitOn_ne_nil]

theorem wordRun_append {word? : Token → Option String} {token : String → Token}
    (h : ∀ t ∈ tokens, ∀ word, word? t = some word → t = token word) :
    tokens = (wordRun word? tokens).1.map token ++ (wordRun word? tokens).2 := by
  induction tokens with
  | nil => rfl
  | cons t tokens ih =>
      have ih := ih fun t ht => h t (by simp [ht])
      rw [wordRun]
      cases hword : word? t with
      | none => rfl
      | some word =>
          dsimp only
          split
          · rfl
          · have ht := h t (by simp) word hword
            rw [List.map_cons, List.cons_append, ← ih, ht]

theorem readValue_tokens {field : String} {value : Value}
    (h : readValue field tokens = .ok (value, rest)) : tokens = value.tokens ++ rest := by
  rcases readValue_cases h with
    ⟨word, words, after, rfl, hrun, rfl⟩ | ⟨quote, text, rfl, rfl⟩ | ⟨form, text, rfl, rfl⟩
  · have hwords : after = (wordRun Token.valueWord? after).1.map .word ++
        (wordRun Token.valueWord? after).2 := by
      apply wordRun_append
      intro t _ word hword
      cases t <;> cases hword
      rfl
    rw [hrun] at hwords
    rw [Value.tokens, List.map_cons, List.cons_append, ← hwords]
  · rfl
  · rfl

theorem readLeaf_tokens {operand : Operand} (hs : ∀ token ∈ tokens, token.IsSpelled)
    (h : readLeaf tokens = .ok (operand, rest)) : tokens = operand.tokens ++ rest := by
  rcases readLeaf_cases h with ⟨field, value, after, rfl, -, hvalue, rfl⟩ |
    ⟨word, words, hrun, rfl⟩ | ⟨text, rfl, rfl⟩ | ⟨quote, text, rfl, rfl⟩
  · rw [Operand.tokens, Path.text_ofText, readValue_tokens hvalue]
    rfl
  · have hwords := wordRun_append hs
    rw [hrun] at hwords
    exact hwords
  · rfl
  · rfl

end leaves

/-! ### Only proper queries are found -/

/-- The path has segments, none of them is empty or the name of an operator, and a value of words
has a word. -/
def IsProperField (path : Path) (value : Value) : Prop :=
  path.segments ≠ [] ∧
  (∀ segment ∈ path.segments, segment ≠ "" ∧ isOperatorName segment = false) ∧
  value ≠ .words []

/-- A text of words has a word. -/
def IsProperText (text : FreeText) : Prop := text ≠ .words []

/-- The part is proper, with `p` and `q` asked of its leaves. -/
def Part.ProperFor (p : Path → Value → Prop) (q : FreeText → Prop) : Part → Prop
  | .operand o => o.Proper p q
  | .branch b => b.Proper p q
  | .query branches => Query.Proper p q branches

/-- The part is proper. -/
def Part.Proper : Part → Prop
  | .operand o => o.Proper IsProperField IsProperText
  | .branch b => b.Proper IsProperField IsProperText
  | .query q => q.Proper IsProperField IsProperText

section proper
variable {g : Grammar} {depth : Nat} {tokens rest : List Token}

theorem readValue_ne_words_nil {field : String} {value : Value}
    (h : readValue field tokens = .ok (value, rest)) : value ≠ .words [] := by
  rcases readValue_cases h with ⟨word, words, after, -, -, rfl⟩ | ⟨quote, text, -, rfl⟩ |
    ⟨form, text, -, rfl⟩
  · simp
  · simp
  · simp

theorem readLeaf_proper {operand : Operand} (h : readLeaf tokens = .ok (operand, rest)) :
    operand.Proper IsProperField IsProperText := by
  rcases readLeaf_cases h with ⟨field, value, after, -, hvalid, hvalue, rfl⟩ |
    ⟨word, words, -, rfl⟩ | ⟨text, -, rfl⟩ | ⟨quote, text, -, rfl⟩
  · refine .field ⟨Path.segments_ofText_ne_nil field, ?_, readValue_ne_words_nil hvalue⟩
    simpa [Path.isValid] using hvalid
  · exact .text (by simp [IsProperText])
  · exact .text (by simp [IsProperText])
  · exact .text (by simp [IsProperText])

/-- If every leaf that is read is proper, so is every part that is derived. -/
theorem Derives.properFor {p : Path → Value → Prop} {q : FreeText → Prop}
    (hleaf : ∀ tokens operand rest, readLeaf tokens = .ok (operand, rest) → operand.Proper p q)
    {part : Part} (h : Derives g depth tokens part rest) : part.ProperFor p q := by
  induction h with
  | not _ _ _ ih => exact .not ih
  | group _ _ ih => exact Operand.proper_group_iff.mpr ih
  | leaf read => exact hleaf _ _ _ read
  | last _ _ _ ih => exact ⟨by simp, List.forall_mem_singleton.mpr ih⟩
  | and _ _ _ ih ih' => exact ⟨by simp, List.forall_mem_cons.mpr ⟨ih, ih'.2⟩⟩
  | next _ _ _ _ ih ih' => exact ⟨by simp, List.forall_mem_cons.mpr ⟨ih, ih'.2⟩⟩
  | single _ _ ih => exact ⟨by simp, List.forall_mem_singleton.mpr ih⟩
  | or _ _ _ ih ih' => exact ⟨by simp, List.forall_mem_cons.mpr ⟨ih, ih'.2⟩⟩

theorem Derives.proper {part : Part} (h : Derives g depth tokens part rest) : part.Proper := by
  have hproper := h.properFor fun _ _ _ => readLeaf_proper
  cases part with
  | operand operand => exact hproper
  | branch branch => exact hproper
  | query query => exact hproper

theorem parse_proper {text : String} {query : Query} (h : Query.parse g text = .ok query) :
    query.Proper IsProperField IsProperText := by
  obtain ⟨tokens, _, hderives⟩ := parse_eq_ok_iff.mp h
  exact hderives.proper

end proper

/-! ### No token is lost -/

section spells
variable {g : Grammar} {depth : Nat} {tokens rest : List Token}

/-- What is taken off the tokens for a part are the tokens of the part. -/
theorem Derives.spells {part : Part} (h : Derives g depth tokens part rest)
    (hs : ∀ token ∈ tokens, token.IsSpelled) :
    ∃ taken, tokens = taken ++ rest ∧ g.Spells taken part.tokens := by
  induction h with
  | not _ _ _ ih =>
      obtain ⟨taken, rfl, hspells⟩ := ih (List.forall_mem_cons.mp hs).2
      exact ⟨.not :: taken, rfl, hspells.cons .not⟩
  | group _ _ ih =>
      obtain ⟨taken, rfl, hspells⟩ := ih (List.forall_mem_cons.mp hs).2
      refine ⟨.openParen :: (taken ++ [.closeParen]), by simp, ?_⟩
      exact (hspells.append (.refl _)).cons .openParen
  | leaf read => exact ⟨_, readLeaf_tokens hs read, .refl _⟩
  | last _ _ _ ih => exact ih hs
  | and _ _ more ih ih' =>
      obtain ⟨taken, rfl, hspells⟩ := ih hs
      obtain ⟨taken', rfl, hspells'⟩ := ih' fun token ht => hs token (by simp [ht])
      refine ⟨taken ++ .and :: taken', by simp, ?_⟩
      rw [Part.tokens, Branch.tokens_cons _ more.proper.1]
      exact hspells.append (hspells'.cons .and)
  | next _ _ implicit more ih ih' =>
      obtain ⟨taken, rfl, hspells⟩ := ih hs
      obtain ⟨taken', rfl, hspells'⟩ := ih' fun token ht => hs token (by simp [ht])
      refine ⟨taken ++ taken', by simp, ?_⟩
      rw [Part.tokens, Branch.tokens_cons _ more.proper.1]
      exact hspells.append (hspells'.dropAnd implicit)
  | single _ _ ih => exact ih hs
  | or _ _ more ih ih' =>
      obtain ⟨taken, rfl, hspells⟩ := ih hs
      obtain ⟨taken', rfl, hspells'⟩ := ih' fun token ht => hs token (by simp [ht])
      refine ⟨taken ++ .or :: taken', by simp, ?_⟩
      rw [Part.tokens, Query.tokens_cons _ more.proper.1]
      exact hspells.append (hspells'.cons .or)

/-- **No token is lost, used twice or moved.**  The tokens of a text are those of its query, except
that `AND`s may be missing if the grammar does not ask for them; and the query is proper. -/
theorem parse_tokens {text : String} {query : Query} (ht : tokenize text = .ok tokens)
    (hq : Query.parse g text = .ok query) :
    Thinned tokens query.tokens ∧ (g.implicitConjunction = false → tokens = query.tokens) ∧
      query.Proper IsProperField IsProperText := by
  obtain ⟨tokens', ht', hderives⟩ := parse_eq_ok_iff.mp hq
  obtain rfl : tokens = tokens' := by
    rw [ht] at ht'
    exact Except.ok.inj ht'
  obtain ⟨taken, htaken, hthinned, hfull⟩ := hderives.spells (tokenize_isSpelled ht)
  rw [List.append_nil] at htaken
  subst htaken
  exact ⟨hthinned, hfull, hderives.proper⟩

/-- A word, a time of day and a negated field side by side. -/
theorem parse_tokens_mixed :
    ∃ (tokens : List Token) (query : Query),
      tokens = [.word "at", .literal .time "10:30", .not, .word "a", .colon, .word "1", .and,
        .openParen, .word "b", .closeParen] ∧
      query = [[.text (.words ["at", "10:30"]), .not (.field ⟨["a"]⟩ (.words ["1"])),
        .group [[.text (.words ["b"])]]]] ∧
      tokenize "at 10:30 NOT a:1 AND (b)" = .ok tokens ∧
      Query.parse {} "at 10:30 NOT a:1 AND (b)" = .ok query ∧
      Thinned tokens query.tokens ∧ query.Proper IsProperField IsProperText := by
  refine ⟨_, _, rfl, rfl, ?_⟩
  have ht : tokenize "at 10:30 NOT a:1 AND (b)" =
      .ok [.word "at", .literal .time "10:30", .not, .word "a", .colon, .word "1", .and,
        .openParen, .word "b", .closeParen] := by
    cbv
  have hq : Query.parse {} "at 10:30 NOT a:1 AND (b)" =
      .ok [[.text (.words ["at", "10:30"]), .not (.field ⟨["a"]⟩ (.words ["1"])),
        .group [[.text (.words ["b"])]]]] := by
    cbv
  obtain ⟨hthinned, -, hproper⟩ := parse_tokens ht hq
  exact ⟨ht, hq, hthinned, hproper⟩

end spells

end QueryFilter
