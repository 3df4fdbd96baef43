import Mathlib
import QueryFilter.Proofs.Query.Derivation
import QueryFilter.Proofs.Token.Boundary

/-! # Queries in parentheses

A text that is a query stays the query that it is when it is put in parentheses and joined with
another one: whatever quotes, brackets and blanks there are in it, it cannot get out of the
parentheses (`parse_parenthesized`).

Tokens are cut off the text as before, by `scan_append_closeParen`.  For the parser a closing
parenthesis is as good as the end of the tokens, so what was derived is derived again in front of
one (`Derives.append_closeParen`), as long as the nesting does not become too deep. -/

namespace QueryFilter

/-! ### Nesting -/

mutual

/-- How deep groups and negations are nested in the operand. -/
def Operand.depth : Operand → Nat
  | .field _ _ => 0
  | .text _ => 0
  | .not operand => operand.depth + 1
  | .group branches => Query.depth branches + 1

/-- How deep groups and negations are nested in the branch. -/
def Branch.depth : Branch → Nat
  | [] => 0
  | operand :: operands => max operand.depth (Branch.depth operands)

/-- How deep groups and negations are nested in the query. -/
def Query.depth : Query → Nat
  | [] => 0
  | branch :: branches => max (Branch.depth branch) (Query.depth branches)

end

/-- How deep groups and negations are nested in the part. -/
def Part.depth : Part → Nat
  | .operand o => o.depth
  | .branch b => Branch.depth b
  | .query q => Query.depth q

/-! ### Reading up to a closing parenthesis -/

section append
variable {g : Grammar} {depth : Nat} {tokens rest tail : List Token}

theorem operandFollows_append_closeParen (tokens tail : List Token) :
    operandFollows (tokens ++ .closeParen :: tail) = operandFollows tokens := by
  cases tokens with
  | nil => rfl
  | cons token tokens => cases token <;> rfl

theorem head?_append_closeParen_ne {token : Token} (hne : token ≠ .closeParen)
    (h : rest.head? ≠ some token) : (rest ++ .closeParen :: tail).head? ≠ some token := by
  cases rest with
  | nil => simpa using hne.symm
  | cons first rest => simpa using h

theorem wordRun_append_closeParen {word? : Token → Option String}
    (hword : word? .closeParen = none) (tokens tail : List Token) :
    wordRun word? (tokens ++ .closeParen :: tail) =
      ((wordRun word? tokens).1, (wordRun word? tokens).2 ++ .closeParen :: tail) := by
  induction tokens with
  | nil => simp [wordRun, hword]
  | cons token tokens ih =>
      have hcolon : (tokens ++ .closeParen :: tail).head? = some .colon ↔
          tokens.head? = some .colon := by
        cases tokens with
        | nil => simp
        | cons first tokens => simp
      rw [List.cons_append, wordRun, wordRun]
      cases word? token with
      | none => rfl
      | some word =>
          simp only [hcolon, ih]
          split <;> rfl

theorem readValue_append_closeParen {field : String} {value : Value}
    (h : readValue field tokens = .ok (value, rest)) :
    readValue field (tokens ++ .closeParen :: tail) = .ok (value, rest ++ .closeParen :: tail) := by
  rcases readValue_cases h with
    ⟨word, words, after, rfl, hrun, rfl⟩ | ⟨quote, text, rfl, rfl⟩ | ⟨form, text, rfl, rfl⟩
  · simp only [List.cons_append, readValue]
    rw [wordRun_append_closeParen rfl, hrun]
  · rfl
  · rfl

theorem readLeaf_append_closeParen {operand : Operand}
    (h : readLeaf tokens = .ok (operand, rest)) :
    readLeaf (tokens ++ .closeParen :: tail) = .ok (operand, rest ++ .closeParen :: tail) := by
  rcases readLeaf_cases h with ⟨field, value, after, rfl, hvalid, hvalue, rfl⟩ |
    ⟨word, words, hrun, rfl⟩ | ⟨text, rfl, rfl⟩ | ⟨quote, text, rfl, rfl⟩
  · exact readLeaf_field hvalid (readValue_append_closeParen hvalue)
  · apply readLeaf_of_wordRun
    rw [wordRun_append_closeParen rfl, hrun]
  · rfl
  · rfl

/-- What is derived is derived again in front of a closing parenthesis, at any depth that leaves
room for it. -/
theorem Derives.append_closeParen {part : Part} (h : Derives g depth tokens part rest)
    (tail : List Token) :
    ∀ depth', depth' + part.depth ≤ g.maxDepth →
      Derives g depth' (tokens ++ .closeParen :: tail) part (rest ++ .closeParen :: tail) := by
  induction h with
  | not follows _ _ ih =>
      intro depth' hdepth
      simp only [Part.depth, Operand.depth] at hdepth ih
      have follows := (operandFollows_append_closeParen _ tail).trans follows
      exact .not follows (by omega) (ih (depth' + 1) (by omega))
  | group _ _ ih =>
      intro depth' hdepth
      simp only [Part.depth, Operand.depth] at hdepth ih
      exact .group (by omega) (ih (depth' + 1) (by omega))
  | leaf read =>
      intro depth' _
      exact .leaf (readLeaf_append_closeParen read)
  | last _ noAnd ends ih =>
      intro depth' hdepth
      simp only [Part.depth, Branch.depth] at hdepth ih
      rw [← operandFollows_append_closeParen _ tail] at ends
      exact .last (ih depth' (by omega)) (head?_append_closeParen_ne (by decide) noAnd) ends
  | and _ follows _ ih ih' =>
      intro depth' hdepth
      simp only [Part.depth, Branch.depth] at hdepth ih ih'
      have follows := (operandFollows_append_closeParen _ tail).trans follows
      exact .and (ih depth' (by omega)) follows (ih' depth' (by omega))
  | next _ follows implicit _ ih ih' =>
      intro depth' hdepth
      simp only [Part.depth, Branch.depth] at hdepth ih ih'
      have follows := (operandFollows_append_closeParen _ tail).trans follows
      exact .next (ih depth' (by omega)) follows implicit (ih' depth' (by omega))
  | single _ noOr ih =>
      intro depth' hdepth
      simp only [Part.depth, Query.depth] at hdepth ih
      exact .single (ih depth' (by omega)) (head?_append_closeParen_ne (by decide) noOr)
  | or _ follows _ ih ih' =>
      intro depth' hdepth
      simp only [Part.depth, Query.depth] at hdepth ih ih'
      have follows := (operandFollows_append_closeParen _ tail).trans follows
      exact .or (ih depth' (by omega)) follows (ih' depth' (by omega))

/-- A whole query in parentheses is a group. -/
theorem Derives.parenthesized {query : Query} (h : Derives g 0 tokens (.query query) [])
    (depth : Nat) (hdepth : depth + query.depth + 1 ≤ g.maxDepth) (tail : List Token) :
    Derives g depth (.openParen :: (tokens ++ .closeParen :: tail)) (.operand (.group query))
      tail :=
  .group (by omega) (h.append_closeParen tail (depth + 1) (by simp only [Part.depth]; omega))

end append

/-! ### Texts in parentheses -/

namespace Token

theorem scan_parenthesized {cs : List Char} {tokens : List Token} (h : scan cs = .ok tokens)
    (tail : List Char) :
    scan ('(' :: (cs ++ ')' :: tail)) =
      (scan tail).map fun more => .openParen :: (tokens ++ .closeParen :: more) := by
  have hopen : read? (trimStart ('(' :: (cs ++ ')' :: tail))) =
      some (.openParen, cs ++ ')' :: tail) := rfl
  rw [scan_of_read? hopen, scan_append_closeParen h tail]
  cases scan tail <;> rfl

theorem scan_operator {op cs : List Char} {token : Token}
    (h : read? (trimStart (op ++ ' ' :: cs)) = some (token, ' ' :: cs)) :
    scan (op ++ ' ' :: cs) = (scan cs).map (token :: ·) := by
  rw [scan_of_read? h, scan_cons_blank (by decide)]

/-- Two texts in parentheses with an operator between them. -/
theorem scan_joined (op : List Char) {token : Token}
    (hop : ∀ cs, read? (trimStart (op ++ ' ' :: cs)) = some (token, ' ' :: cs))
    {cs₁ cs₂ : List Char} {tokens₁ tokens₂ : List Token} (h₁ : scan cs₁ = .ok tokens₁)
    (h₂ : scan cs₂ = .ok tokens₂) :
    scan ('(' :: (cs₁ ++ ')' :: (op ++ ' ' :: '(' :: (cs₂ ++ [')'])))) =
      .ok (.openParen :: (tokens₁ ++ .closeParen :: token ::
        .openParen :: (tokens₂ ++ [.closeParen]))) := by
  rw [scan_parenthesized h₁, scan_operator (hop _), scan_parenthesized h₂, scan_eq]
  rfl

end Token

section splice
variable {g : Grammar} {t₁ t₂ : String} {tokens₁ tokens₂ : List Token} {q₁ q₂ : Query}

theorem tokenize_and (h₁ : tokenize t₁ = .ok tokens₁) (h₂ : tokenize t₂ = .ok tokens₂) :
    tokenize ("(" ++ t₁ ++ ") AND (" ++ t₂ ++ ")") =
      .ok (.openParen :: (tokens₁ ++ .closeParen :: .and ::
        .openParen :: (tokens₂ ++ [.closeParen]))) := by
  have hchars : ("(" ++ t₁ ++ ") AND (" ++ t₂ ++ ")").toList =
      '(' :: (t₁.toList ++ ')' ::
        ([' ', 'A', 'N', 'D'] ++ ' ' :: '(' :: (t₂.toList ++ [')']))) := by
    simp
  rw [tokenize, hchars]
  exact Token.scan_joined [' ', 'A', 'N', 'D'] (fun _ => rfl) h₁ h₂

theorem tokenize_or (h₁ : tokenize t₁ = .ok tokens₁) (h₂ : tokenize t₂ = .ok tokens₂) :
    tokenize ("(" ++ t₁ ++ ") OR (" ++ t₂ ++ ")") =
      .ok (.openParen :: (tokens₁ ++ .closeParen :: .or ::
        .openParen :: (tokens₂ ++ [.closeParen]))) := by
  have hchars : ("(" ++ t₁ ++ ") OR (" ++ t₂ ++ ")").toList =
      '(' :: (t₁.toList ++ ')' :: ([' ', 'O', 'R'] ++ ' ' :: '(' :: (t₂.toList ++ [')']))) := by
    simp
  rw [tokenize, hchars]
  exact Token.scan_joined [' ', 'O', 'R'] (fun _ => rfl) h₁ h₂

theorem tokenize_not (h₁ : tokenize t₁ = .ok tokens₁) :
    tokenize ("NOT (" ++ t₁ ++ ")") = .ok (.not :: .openParen :: (tokens₁ ++ [.closeParen])) := by
  have hchars : ("NOT (" ++ t₁ ++ ")").toList =
      ['N', 'O', 'T'] ++ ' ' :: '(' :: (t₁.toList ++ [')']) := by
    simp
  rw [tokenize, hchars, Token.scan_operator rfl, Token.scan_parenthesized h₁, Token.scan_eq]
  rfl

/-- A group at the end of the tokens is a branch. -/
theorem Derives.lastGroup (h : Derives g 0 tokens₁ (.query q₁) []) (depth : Nat)
    (hdepth : depth + q₁.depth + 1 ≤ g.maxDepth) :
    Derives g depth (.openParen :: (tokens₁ ++ [.closeParen])) (.branch [.group q₁]) [] :=
  .last (h.parenthesized depth hdepth []) (by simp) (by simp [operandFollows])

/-- **Queries do not get out of parentheses.**  Texts that are queries can be put in parentheses
and joined by an operator, and the query that results has theirs as its groups. -/
theorem parse_parenthesized (h₁ : Query.parse g t₁ = .ok q₁) (h₂ : Query.parse g t₂ = .ok q₂)
    (hdepth₁ : q₁.depth + 1 ≤ g.maxDepth) (hdepth₂ : q₂.depth + 1 ≤ g.maxDepth) :
    Query.parse g ("(" ++ t₁ ++ ") AND (" ++ t₂ ++ ")") = .ok [[.group q₁, .group q₂]] ∧
    Query.parse g ("(" ++ t₁ ++ ") OR (" ++ t₂ ++ ")") = .ok [[.group q₁], [.group q₂]] ∧
    (q₁.depth + 2 ≤ g.maxDepth →
      Query.parse g ("NOT (" ++ t₁ ++ ")") = .ok [[.not (.group q₁)]]) := by
  obtain ⟨tokens₁, htokens₁, hderives₁⟩ := parse_eq_ok_iff.mp h₁
  obtain ⟨tokens₂, htokens₂, hderives₂⟩ := parse_eq_ok_iff.mp h₂
  have second := hderives₂.lastGroup 0 (by omega)
  refine ⟨?_, ?_, ?_⟩
  · refine parse_eq_ok_iff.mpr ⟨_, tokenize_and htokens₁ htokens₂, ?_⟩
    have first := hderives₁.parenthesized 0 (by omega)
    exact .single (.and (first _) rfl second) (by simp)
  · refine parse_eq_ok_iff.mpr ⟨_, tokenize_or htokens₁ htokens₂, ?_⟩
    have first := hderives₁.parenthesized 0 (by omega)
    exact .or (.last (first _) (by simp) (by simp [operandFollows])) rfl
      (.single second (by simp))
  · intro hdepth
    refine parse_eq_ok_iff.mpr ⟨_, tokenize_not htokens₁, ?_⟩
    have inner := hderives₁.parenthesized 1 (by omega) []
    exact .single (.last (.not rfl (by omega) inner) (by simp) (by simp [operandFollows]))
      (by simp)

/-- The parenthesis in the quotes does not close the group. -/
theorem parse_parenthesized_quoted :
    ∃ q₁ q₂ : Query,
      q₁ = [[.field ⟨["a"]⟩ (.quoted .double ") OR ("), .not (.group [[.text (.words ["b"])]])]] ∧
      q₂ = [[.text (.words ["at", "2023-01-15 10:30"])]] ∧
      Query.parse {} "(a:\") OR (\" NOT (b)) AND (at 2023-01-15 10:30)" =
        .ok [[.group q₁, .group q₂]] ∧
      Query.parse {} "(a:\") OR (\" NOT (b)) OR (at 2023-01-15 10:30)" =
        .ok [[.group q₁], [.group q₂]] ∧
      Query.parse {} "NOT (a:\") OR (\" NOT (b))" = .ok [[.not (.group q₁)]] := by
  refine ⟨_, _, rfl, rfl, ?_⟩
  have h₁ : Query.parse {} "a:\") OR (\" NOT (b)" = .ok [[.field ⟨["a"]⟩
      (.quoted .double ") OR ("), .not (.group [[.text (.words ["b"])]])]] := by
    cbv
  have h₂ : Query.parse {} "at 2023-01-15 10:30" =
      .ok [[.text (.words ["at", "2023-01-15 10:30"])]] := by
    cbv
  obtain ⟨hand, hor, hnot⟩ := parse_parenthesized h₁ h₂ (by decide) (by decide)
  exact ⟨hand, hor, hnot (by decide)⟩

end splice

end QueryFilter
