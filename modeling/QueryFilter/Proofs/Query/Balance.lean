import QueryFilter.Proofs.Query.Yield

/-! # Balanced parentheses

A parenthesis is reported as unmatched where the readers stop without its counterpart.  A closing
one is reported only if the parentheses of the text are not balanced, and so is an opening one if
operands may stand next to each other.  If the grammar asks for an `AND` between them, an opening
parenthesis is also reported when its group is cut short by an operand without one
(`parse_unmatched`).

`LeavesOpen` counts the parentheses that a piece of the tokens leaves open.  What is taken for a part
of a query leaves none (`Derives.leavesOpen`), and what stands in front of the parenthesis that is
blamed closes none that it did not open (`SyntaxError.Blames`). -/

namespace QueryFilter

/-! ### Counting parentheses -/

/-- How many parentheses are open after the tokens, if `opened` are open before them.  There is no
answer if one is closed that was never opened. -/
def openAfter? (opened : Nat) : List Token → Option Nat
  | [] => some opened
  | .openParen :: tokens => openAfter? (opened + 1) tokens
  | .closeParen :: tokens =>
    match opened with
    | 0 => none
    | opened + 1 => openAfter? opened tokens
  | _ :: tokens => openAfter? opened tokens

/-- Every parenthesis has its counterpart. -/
def IsBalanced (tokens : List Token) : Prop := openAfter? 0 tokens = some 0

instance (tokens : List Token) : Decidable (IsBalanced tokens) :=
  inferInstanceAs (Decidable (openAfter? 0 tokens = some 0))

/-- The tokens leave `k` parentheses open and close none that was open before them. -/
def LeavesOpen (k : Nat) (tokens : List Token) : Prop :=
  ∀ opened, openAfter? opened tokens = some (opened + k)

section counting
variable {k l : Nat} {tokens more : List Token}

theorem openAfter?_append (opened : Nat) (tokens more : List Token) :
    openAfter? opened (tokens ++ more) =
      (openAfter? opened tokens).bind fun opened => openAfter? opened more := by
  induction tokens generalizing opened with
  | nil => rfl
  | cons token tokens ih =>
      cases token
      case openParen => exact ih (opened + 1)
      case closeParen =>
        cases opened with
        | zero => rfl
        | succ opened => exact ih opened
      all_goals exact ih opened

theorem LeavesOpen.append (h : LeavesOpen k tokens) (h' : LeavesOpen l more) :
    LeavesOpen (k + l) (tokens ++ more) := by
  intro opened
  rw [openAfter?_append, h opened, Option.bind_some, h' (opened + k), Nat.add_assoc]

theorem leavesOpen_nil : LeavesOpen 0 [] := fun _ => rfl

theorem leavesOpen_openParen : LeavesOpen 1 [.openParen] := fun _ => rfl

/-- A token that is no parenthesis opens and closes nothing. -/
theorem LeavesOpen.cons {token : Token} (hopen : token ≠ .openParen) (hclose : token ≠ .closeParen)
    (h : LeavesOpen k tokens) : LeavesOpen k (token :: tokens) := by
  intro opened
  cases token
  case openParen => exact absurd rfl hopen
  case closeParen => exact absurd rfl hclose
  all_goals exact h opened

/-- A parenthesis around tokens that close what they open is closed behind them. -/
theorem LeavesOpen.parenthesized (h : LeavesOpen 0 tokens) :
    LeavesOpen 0 (.openParen :: (tokens ++ [.closeParen])) := by
  intro opened
  rw [openAfter?, openAfter?_append, h (opened + 1)]
  rfl

theorem LeavesOpen.isBalanced (h : LeavesOpen 0 tokens) : IsBalanced tokens := h 0

theorem LeavesOpen.not_isBalanced (h : LeavesOpen (k + 1) tokens) : ¬IsBalanced tokens := by
  intro hbalanced
  rw [IsBalanced, h 0, Option.some.injEq] at hbalanced
  omega

/-- A parenthesis that is closed before it was opened has no counterpart. -/
theorem LeavesOpen.not_isBalanced_closeParen (h : LeavesOpen 0 tokens) :
    ¬IsBalanced (tokens ++ .closeParen :: more) := by
  intro hbalanced
  rw [IsBalanced, openAfter?_append, h 0] at hbalanced
  cases hbalanced

/-- Operators that are left out open and close nothing. -/
theorem Thinned.openAfter?_eq {full : List Token} (h : Thinned tokens full) (opened : Nat) :
    openAfter? opened tokens = openAfter? opened full := by
  induction h generalizing opened with
  | nil => rfl
  | keep token _ ih =>
      cases token
      case openParen => exact ih (opened + 1)
      case closeParen =>
        cases opened with
        | zero => rfl
        | succ opened => exact ih opened
      all_goals exact ih opened
  | drop _ ih => exact ih opened

end counting

/-! ### The tokens of a query are balanced -/

theorem Value.leavesOpen_tokens (value : Value) : LeavesOpen 0 value.tokens := by
  cases value with
  | words ws =>
      induction ws with
      | nil => exact leavesOpen_nil
      | cons word ws ih => exact ih.cons (by simp) (by simp)
  | quoted quote text => exact leavesOpen_nil.cons (by simp) (by simp)
  | literal form text => exact leavesOpen_nil.cons (by simp) (by simp)

theorem FreeText.leavesOpen_tokens (text : FreeText) : LeavesOpen 0 text.tokens := by
  cases text with
  | words ws =>
      induction ws with
      | nil => exact leavesOpen_nil
      | cons word ws ih =>
          refine ih.cons ?_ ?_
          · unfold Token.ofFreeWord
            split_ifs <;> simp
          · unfold Token.ofFreeWord
            split_ifs <;> simp
  | quoted quote text => exact leavesOpen_nil.cons (by simp) (by simp)
  | regex text => exact leavesOpen_nil.cons (by simp) (by simp)

mutual

theorem Operand.leavesOpen_tokens : ∀ operand : Operand, LeavesOpen 0 operand.tokens
  | .field path value => by
      rw [Operand.tokens]
      exact (value.leavesOpen_tokens.cons (by simp) (by simp)).cons (by simp) (by simp)
  | .text text => by
      rw [Operand.tokens]
      exact text.leavesOpen_tokens
  | .not operand => by
      rw [Operand.tokens]
      exact operand.leavesOpen_tokens.cons (by simp) (by simp)
  | .group branches => by
      rw [Operand.tokens]
      exact (Query.leavesOpen_tokens branches).parenthesized

theorem Branch.leavesOpen_tokens : ∀ branch : Branch, LeavesOpen 0 (Branch.tokens branch)
  | [] => leavesOpen_nil
  | [operand] => operand.leavesOpen_tokens
  | operand :: second :: operands =>
      operand.leavesOpen_tokens.append
        ((Branch.leavesOpen_tokens (second :: operands)).cons (by simp) (by simp))

theorem Query.leavesOpen_tokens : ∀ query : Query, LeavesOpen 0 (Query.tokens query)
  | [] => leavesOpen_nil
  | [branch] => Branch.leavesOpen_tokens branch
  | branch :: second :: branches =>
      (Branch.leavesOpen_tokens branch).append
        ((Query.leavesOpen_tokens (second :: branches)).cons (by simp) (by simp))

end

theorem Part.leavesOpen_tokens (part : Part) : LeavesOpen 0 part.tokens := by
  cases part with
  | operand operand => exact operand.leavesOpen_tokens
  | branch branch => exact Branch.leavesOpen_tokens branch
  | query query => exact Query.leavesOpen_tokens query

/-! ### Where the readers stop -/

/-- What can come after the part: after a branch no `AND`, after a query no `OR` either, and an
operand only if the grammar asks for an `AND` before it. -/
def Part.Ends (g : Grammar) (rest : List Token) : Part → Prop
  | .operand _ => True
  | .branch _ =>
    rest.head? ≠ some .and ∧ (operandFollows rest = true → g.implicitConjunction = false)
  | .query _ =>
    rest.head? ≠ some .and ∧ rest.head? ≠ some .or ∧
      (operandFollows rest = true → g.implicitConjunction = false)

section readers
variable {g : Grammar} {depth : Nat} {tokens rest : List Token}

theorem Derives.ends {part : Part} (h : Derives g depth tokens part rest) : part.Ends g rest := by
  induction h with
  | not _ _ _ _ => trivial
  | group _ _ _ => trivial
  | leaf _ => trivial
  | last _ noAnd ends _ => exact ⟨noAnd, ends⟩
  | and _ _ _ _ ih' => exact ih'
  | next _ _ _ _ _ ih' => exact ih'
  | single _ noOr ih => exact ⟨ih.1, noOr, ih.2⟩
  | or _ _ _ _ ih' => exact ih'

/-- Behind a query stands the end of the tokens, a closing parenthesis, or an operand that the
grammar wants an `AND` before. -/
theorem Derives.rest_cases {query : Query} (h : Derives g depth tokens (.query query) rest) :
    rest = [] ∨ rest.head? = some .closeParen ∨
      operandFollows rest = true ∧ g.implicitConjunction = false := by
  obtain ⟨noAnd, noOr, ends⟩ := h.ends
  cases rest with
  | nil => exact .inl rfl
  | cons token rest =>
      cases token
      case and => exact absurd rfl noAnd
      case or => exact absurd rfl noOr
      case closeParen => exact .inr (.inl rfl)
      all_goals exact .inr (.inr ⟨rfl, ends rfl⟩)

/-- What is taken off the tokens for a part leaves no parenthesis open. -/
theorem Derives.leavesOpen {part : Part} (h : Derives g depth tokens part rest)
    (hs : ∀ token ∈ tokens, token.IsSpelled) :
    ∃ taken, tokens = taken ++ rest ∧ LeavesOpen 0 taken ∧
      (g.implicitConjunction = false → taken = part.tokens) := by
  obtain ⟨taken, htokens, hthinned, hfull⟩ := h.spells hs
  refine ⟨taken, htokens, fun opened => ?_, hfull⟩
  rw [hthinned.openAfter?_eq opened]
  exact part.leavesOpen_tokens opened

end readers

/-! ### The parenthesis that is blamed -/

/-- Behind an opening parenthesis there is nothing, or a query without a closing parenthesis after
it. -/
def IsStuck (g : Grammar) (tokens : List Token) : Prop :=
  tokens = [] ∨ ∃ depth query rest,
    Derives g depth tokens (.query query) rest ∧ rest.head? ≠ some .closeParen

/-- What an error of the readers says about parentheses.  An opening one is blamed if the readers
are stuck behind it, and then nothing before it closes more than it opens; a closing one is never
blamed, since a query ends in front of it. -/
def SyntaxError.Blames (g : Grammar) (tokens : List Token) : SyntaxError → Prop
  | .unmatchedOpenParen fragment =>
    ∃ k before after, tokens = before ++ .openParen :: after ∧ LeavesOpen k before ∧
      fragment = Token.fragment (.openParen :: after) ∧ IsStuck g after
  | .unmatchedCloseParen _ => False
  | _ => True

/-- One of the readers fails with the error, at some depth. -/
def SyntaxError.Stops (g : Grammar) (tokens : List Token) (error : SyntaxError) : Prop :=
  ∃ depth, readOperand g depth tokens = .error error ∨ readBranch g depth tokens = .error error ∨
    readQuery g depth tokens = .error error

section blame
variable {g : Grammar} {depth : Nat} {tokens : List Token} {error : SyntaxError}

theorem SyntaxError.Blames.append {k : Nat} {before : List Token} (h : error.Blames g tokens)
    (hbefore : LeavesOpen k before) : error.Blames g (before ++ tokens) := by
  cases error
  case unmatchedOpenParen fragment =>
    obtain ⟨l, between, after, rfl, hbetween, hfragment, hstuck⟩ := h
    exact ⟨k + l, before ++ between, after, by simp, hbefore.append hbetween, hfragment, hstuck⟩
  all_goals exact h

theorem SyntaxError.Blames.cons {token : Token} (h : error.Blames g tokens)
    (hclose : token ≠ .closeParen) : error.Blames g (token :: tokens) := by
  by_cases hopen : token = .openParen
  · subst hopen
    exact h.append leavesOpen_openParen
  · exact h.append (leavesOpen_nil.cons hopen hclose)

theorem readValue_blames {field : String} (h : readValue field tokens = .error error)
    (other : List Token) : error.Blames g other := by
  unfold readValue at h
  split at h <;> cases h <;> trivial

theorem readFreeWords_blames {first : Token} (h : readFreeWords first tokens = .error error)
    (other : List Token) : error.Blames g other := by
  unfold readFreeWords at h
  split at h <;> cases h
  trivial

/-- Leaves have no parentheses to blame. -/
theorem readLeaf_blames (h : readLeaf tokens = .error error) : error.Blames g tokens := by
  unfold readLeaf at h
  split at h
  · cases h
    trivial
  · cases h
    trivial
  · dsimp only at h
    split at h
    · split at h
      · next hvalue =>
        cases h
        exact readValue_blames hvalue _
      · cases h
    · cases h
      trivial
  · exact readFreeWords_blames h _
  · exact readFreeWords_blames h _
  · exact readFreeWords_blames h _
  · cases h
  · cases h
  · cases h
    trivial

/-- An operand fails at its own parenthesis, or at one of those nested in it. -/
theorem readOperand_blames (hs : ∀ token ∈ tokens, token.IsSpelled)
    (ih : ∀ after, after.length < tokens.length → (∀ token ∈ after, token.IsSpelled) →
      error.Stops g after → error.Blames g after)
    (h : readOperand g depth tokens = .error error) : error.Blames g tokens := by
  by_cases hnot : ∃ after, tokens = .not :: after
  · obtain ⟨after, rfl⟩ := hnot
    rw [readOperand_not] at h
    split at h
    · split at h
      · have hinner := map_eq_error_iff.mp h
        exact (ih after (by simp) (List.forall_mem_cons.mp hs).2 ⟨_, .inl hinner⟩).cons (by simp)
      · cases h
        trivial
    · cases h
      trivial
  by_cases hopen : ∃ after, tokens = .openParen :: after
  · obtain ⟨after, rfl⟩ := hopen
    have blamed (hstuck : IsStuck g after) :
        (SyntaxError.unmatchedOpenParen (Token.fragment (.openParen :: after))).Blames g
          (.openParen :: after) :=
      ⟨0, [], after, rfl, leavesOpen_nil, rfl, hstuck⟩
    rw [readOperand_openParen] at h
    split at h
    · next hempty =>
      cases h
      exact blamed (.inl (List.isEmpty_iff.mp hempty))
    · split at h
      · split at h
        · next hinner =>
          cases h
          exact (ih after (by simp) (List.forall_mem_cons.mp hs).2
            ⟨_, .inr (.inr hinner)⟩).cons (by simp)
        · cases h
        · next result hclose hinner =>
          -- the group ends in front of something that is no closing parenthesis
          obtain ⟨query, rest⟩ := result
          cases h
          refine blamed (.inr ⟨_, query, rest, derives_iff.mpr hinner, fun hhead => ?_⟩)
          obtain ⟨rest', rfl⟩ := List.head?_eq_some_iff.mp hhead
          exact hclose query rest' rfl
      · cases h
        trivial
  · rw [readOperand_leaf g depth (fun after e => hnot ⟨after, e⟩)
      fun after e => hopen ⟨after, e⟩] at h
    exact readLeaf_blames h

/-- A branch fails at its first operand, or behind it. -/
theorem readBranch_blames (hs : ∀ token ∈ tokens, token.IsSpelled)
    (ih : ∀ after, after.length < tokens.length → (∀ token ∈ after, token.IsSpelled) →
      error.Stops g after → error.Blames g after)
    (h : readBranch g depth tokens = .error error) : error.Blames g tokens := by
  cases hread : readOperand g depth tokens with
  | error e =>
      rw [readBranch_error hread] at h
      cases h
      exact readOperand_blames hs ih hread
  | ok p =>
      obtain ⟨operand, after⟩ := p
      have first : Derives g depth tokens (.operand operand) after := derives_iff.mpr hread
      have hlen := first.length_lt
      obtain ⟨taken, rfl, hopen, -⟩ := first.leavesOpen hs
      have hafter := (List.forall_mem_append.mp hs).2
      rcases readBranch_cases hread with
        ⟨after', rfl, -, heq⟩ | ⟨-, -, heq⟩ | ⟨-, -, heq⟩ | heq
      all_goals rw [heq] at h
      · have hmore := map_eq_error_iff.mp h
        rw [List.length_cons] at hlen
        have hblame := ih after' (by omega) (List.forall_mem_cons.mp hafter).2
          ⟨_, .inr (.inl hmore)⟩
        exact (hblame.cons (by simp)).append hopen
      · have hmore := map_eq_error_iff.mp h
        exact (ih after hlen hafter ⟨_, .inr (.inl hmore)⟩).append hopen
      · cases h
      · cases h
        trivial

/-- A query fails in its first branch, or behind it. -/
theorem readQuery_blames (hs : ∀ token ∈ tokens, token.IsSpelled)
    (ih : ∀ after, after.length < tokens.length → (∀ token ∈ after, token.IsSpelled) →
      error.Stops g after → error.Blames g after)
    (h : readQuery g depth tokens = .error error) : error.Blames g tokens := by
  cases hread : readBranch g depth tokens with
  | error e =>
      rw [readQuery_error hread] at h
      cases h
      exact readBranch_blames hs ih hread
  | ok p =>
      obtain ⟨branch, after⟩ := p
      have first : Derives g depth tokens (.branch branch) after := derives_iff.mpr hread
      have hlen := first.length_lt
      obtain ⟨taken, rfl, hopen, -⟩ := first.leavesOpen hs
      have hafter := (List.forall_mem_append.mp hs).2
      rcases readQuery_cases hread with ⟨after', rfl, -, heq⟩ | ⟨-, heq⟩ | heq
      all_goals rw [heq] at h
      · have hmore := map_eq_error_iff.mp h
        rw [List.length_cons] at hlen
        have hblame := ih after' (by omega) (List.forall_mem_cons.mp hafter).2
          ⟨_, .inr (.inr hmore)⟩
        exact (hblame.cons (by simp)).append hopen
      · cases h
      · cases h
        trivial

/-- All three readers at once, by induction on the number of tokens. -/
theorem SyntaxError.Stops.blames (h : error.Stops g tokens)
    (hs : ∀ token ∈ tokens, token.IsSpelled) : error.Blames g tokens := by
  induction hn : tokens.length using Nat.strongRecOn generalizing tokens with
  | ind n ih =>
      subst hn
      have ih : ∀ after, after.length < tokens.length → (∀ token ∈ after, token.IsSpelled) →
          error.Stops g after → error.Blames g after :=
        fun after hlt hs h => ih _ hlt h hs rfl
      obtain ⟨depth, h | h | h⟩ := h
      · exact readOperand_blames hs ih h
      · exact readBranch_blames hs ih h
      · exact readQuery_blames hs ih h

/-- The grammar asks for `AND`s, and the query behind an opening parenthesis, where the fragment
starts, is followed by an operand without one. -/
def IsCutShort (g : Grammar) (fragment : String) (tokens : List Token) : Prop :=
  g.implicitConjunction = false ∧ ∃ depth before query rest,
    tokens = before ++ .openParen :: (Query.tokens query ++ rest) ∧
    readQuery g depth (Query.tokens query ++ rest) = .ok (query, rest) ∧
    operandFollows rest = true ∧
    fragment = Token.fragment (.openParen :: (Query.tokens query ++ rest))

/-- A parenthesis that is blamed stays open, or its group is cut short. -/
theorem SyntaxError.Blames.cases_open {fragment : String}
    (h : (SyntaxError.unmatchedOpenParen fragment).Blames g tokens)
    (hs : ∀ token ∈ tokens, token.IsSpelled) :
    ¬IsBalanced tokens ∨ IsCutShort g fragment tokens := by
  obtain ⟨k, before, after, rfl, hbefore, hfragment, hstuck⟩ := h
  have unclosed (hafter : LeavesOpen 0 after) : ¬IsBalanced (before ++ .openParen :: after) := by
    have hopen := hbefore.append (leavesOpen_openParen.append hafter)
    exact hopen.not_isBalanced
  rcases hstuck with rfl | ⟨depth, query, rest, hquery, hclose⟩
  · exact .inl (unclosed leavesOpen_nil)
  · have hafter : ∀ token ∈ after, token.IsSpelled := fun token ht => hs token (by simp [ht])
    obtain ⟨taken, rfl, hopen, hfull⟩ := hquery.leavesOpen hafter
    rcases hquery.rest_cases with rfl | hhead | ⟨hfollows, hexplicit⟩
    · rw [List.append_nil] at unclosed ⊢
      exact .inl (unclosed hopen)
    · exact absurd hhead hclose
    · have htaken : taken = Query.tokens query := hfull hexplicit
      subst htaken
      exact .inr ⟨hexplicit, depth, before, query, rest, rfl, hquery.isRead, hfollows, hfragment⟩

end blame

/-! ### Whole queries -/

section parse
variable {g : Grammar} {text : String} {tokens : List Token}

/-- The errors of whole queries are those of the readers, and those of tokens that are left. -/
theorem ofTokens_eq_error {error : SyntaxError} (h : Query.ofTokens g tokens = .error error) :
    error.Stops g tokens ∨
      (∃ query rest, Derives g 0 tokens (.query query) (.closeParen :: rest)) ∨
      ∃ token, error = .unexpectedToken token := by
  unfold Query.ofTokens at h
  split at h
  · next hread =>
    cases h
    exact .inl ⟨0, .inr (.inr hread)⟩
  · cases h
  · next query rest hread => exact .inr (.inl ⟨query, rest, derives_iff.mpr hread⟩)
  · cases h
    exact .inr (.inr ⟨_, rfl⟩)

/-- What is left behind a query starts with a parenthesis that was never opened. -/
theorem Derives.not_isBalanced {query : Query} {rest : List Token}
    (h : Derives g 0 tokens (.query query) (.closeParen :: rest))
    (hs : ∀ token ∈ tokens, token.IsSpelled) : ¬IsBalanced tokens := by
  obtain ⟨taken, rfl, hopen, -⟩ := h.leavesOpen hs
  exact hopen.not_isBalanced_closeParen

/-- An operand that is left behind the whole query is an unexpected token. -/
theorem ofTokens_of_operandFollows {query : Query} {rest : List Token}
    (h : readQuery g 0 tokens = .ok (query, rest)) (hfollows : operandFollows rest = true) :
    ∃ token ∈ rest.head?, Query.ofTokens g tokens = .error (.unexpectedToken token.text) := by
  rw [Query.ofTokens, h]
  cases rest with
  | nil => cases hfollows
  | cons token rest =>
      refine ⟨token, rfl, ?_⟩
      cases token
      case closeParen => cases hfollows
      all_goals rfl

/-- **Which parentheses are reported.**  The parentheses of a query are balanced.  If a closing one
is reported they are not, and if an opening one is, they are not or its group is cut short: an
operand without the `AND` that the grammar asks for counts as the end of the group.  Outside of all
groups such an operand is an unexpected token. -/
theorem parse_unmatched (ht : tokenize text = .ok tokens) :
    (∀ query, Query.parse g text = .ok query → IsBalanced tokens) ∧
    (∀ fragment, Query.parse g text = .error (.unmatchedCloseParen fragment) →
      ¬IsBalanced tokens) ∧
    (∀ fragment, Query.parse g text = .error (.unmatchedOpenParen fragment) →
      ¬IsBalanced tokens ∨ IsCutShort g fragment tokens) ∧
    ∀ query rest, readQuery g 0 tokens = .ok (query, rest) → operandFollows rest = true →
      ∃ token ∈ rest.head?, Query.parse g text = .error (.unexpectedToken token.text) := by
  have hs := tokenize_isSpelled ht
  have hparse : Query.parse g text = Query.ofTokens g tokens := by rw [Query.parse, ht]
  rw [hparse]
  refine ⟨fun query h => ?_, fun fragment h => ?_, fun fragment h => ?_, fun query rest h =>
    ofTokens_of_operandFollows h⟩
  · obtain ⟨taken, htokens, hopen, -⟩ := (ofTokens_eq_ok_iff.mp h).leavesOpen hs
    rw [htokens, List.append_nil]
    exact hopen.isBalanced
  · rcases ofTokens_eq_error h with hstops | ⟨query, rest, hderives⟩ | ⟨token, htoken⟩
    · exact absurd (hstops.blames hs) id
    · exact hderives.not_isBalanced hs
    · cases htoken
  · rcases ofTokens_eq_error h with hstops | ⟨query, rest, hderives⟩ | ⟨token, htoken⟩
    · exact (hstops.blames hs).cases_open hs
    · exact .inl (hderives.not_isBalanced hs)
    · cases htoken

/-- As many parentheses are closed as are opened, but in the wrong order; and a group that is never
closed. -/
theorem parse_unmatched_order :
    (∃ tokens, tokenize "b) OR (a" = .ok tokens ∧
      Query.parse {} "b) OR (a" = .error (.unmatchedCloseParen ") OR ( a") ∧
      ¬IsBalanced tokens) ∧
    ∃ tokens, tokenize "(a:1 NOT (b" = .ok tokens ∧
      Query.parse {} "(a:1 NOT (b" = .error (.unmatchedOpenParen "( b") ∧
      ¬IsBalanced tokens := by
  have hclose : tokenize "b) OR (a" =
      .ok [.word "b", .closeParen, .or, .openParen, .word "a"] := by
    cbv
  have hopen : tokenize "(a:1 NOT (b" =
      .ok [.openParen, .word "a", .colon, .word "1", .not, .openParen, .word "b"] := by
    cbv
  have hcloseError : Query.parse {} "b) OR (a" = .error (.unmatchedCloseParen ") OR ( a") := by
    cbv
  have hopenError : Query.parse {} "(a:1 NOT (b" = .error (.unmatchedOpenParen "( b") := by
    cbv
  refine ⟨⟨_, hclose, hcloseError, (parse_unmatched hclose).2.1 _ hcloseError⟩, _, hopen,
    hopenError, ?_⟩
  rcases (parse_unmatched hopen).2.2.1 _ hopenError with hbalance | ⟨himplicit, -⟩
  · exact hbalance
  · cases himplicit

/-- A group that is closed is reported as open. -/
theorem parse_adjacent_in_group :
    (∃ tokens, tokenize "(a:1 b:2)" = .ok tokens ∧ IsBalanced tokens) ∧
    Query.parse { implicitConjunction := false } "(a:1 b:2)" =
      .error (.unmatchedOpenParen "( a : 1 b : 2 )") ∧
    Query.parse { implicitConjunction := false } "a:1 b:2" = .error (.unexpectedToken "b") := by
  have htokens : tokenize "(a:1 b:2)" =
      .ok [.openParen, .word "a", .colon, .word "1", .word "b", .colon, .word "2", .closeParen] := by
    cbv
  refine ⟨⟨_, htokens, by decide⟩, ?_, ?_⟩
  · cbv
  · cbv

end parse

end QueryFilter
