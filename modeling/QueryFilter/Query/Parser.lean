import QueryFilter.Query
import QueryFilter.Token.Scan

/-! # From tokens to queries

    query   := branch ("OR" branch)*
    branch  := operand ("AND" operand)*
    operand := "NOT" operand | "(" query ")" | field ":" value | free text

With `Grammar.implicitConjunction` two operands next to each other are joined as if `AND` stood
between them.  Groups and negations may be nested `Grammar.maxDepth` deep.

The parser is one recursion on the number of tokens left: every part of a query takes at least one
token (`Parsed.shorter`).  `readOperand`, `readBranch` and `readQuery` are its three readers without
that bookkeeping; `readOperand_not`, `readOperand_openParen`, `readOperand_leaf`, `readBranch_eq`
and `readQuery_eq` say what each of them does, in the shape of the grammar above.  What has no
parts is read by `readLeaf`, and `readLeaf_cases` says what that finds. -/

namespace QueryFilter

/-- What counts as a query. -/
structure Grammar where
  /-- Operands next to each other are joined by `AND`. -/
  implicitConjunction : Bool := true
  /-- How deep groups and negations may be nested. -/
  maxDepth : Nat := 64
deriving DecidableEq, Repr, Inhabited

/-! ### Parts without nesting -/

/-- The text of a token that can be a word of a value. -/
def Token.valueWord? : Token → Option String
  | .word text => some text
  | _ => none

/-- The text of a token that can be a word of a free text. -/
def Token.freeWord? : Token → Option String
  | .word text => some text
  | .literal .dateTime text => some text
  | .literal .time text => some text
  | _ => none

/-- The longest run of words: it ends before a token that is no word and before a field name. -/
def wordRun (word? : Token → Option String) : List Token → List String × List Token
  | [] => ([], [])
  | token :: rest =>
    match word? token with
    | none => ([], token :: rest)
    | some word =>
      if rest.head? = some .colon then ([], token :: rest)
      else
        let (words, rest) := wordRun word? rest
        (word :: words, rest)

/-- Can an operand start here?  Only the token after an operator is looked at. -/
def operandFollows : List Token → Bool
  | [] => false
  | .closeParen :: _ => false
  | .and :: _ => false
  | .or :: _ => false
  | _ => true

/-- The value after `field:`. -/
def readValue (field : String) : List Token → Except SyntaxError (Value × List Token)
  | .word word :: rest =>
    let (words, rest) := wordRun Token.valueWord? rest
    .ok (.words (word :: words), rest)
  | .quoted quote text :: rest => .ok (.quoted quote text, rest)
  | .literal form text :: rest => .ok (.literal form text, rest)
  | .colon :: _ => .error (.unexpectedToken (field ++ ":" ++ Token.colon.text))
  | .openParen :: _ => .error (.unexpectedToken (field ++ ":" ++ Token.openParen.text))
  | _ => .error (.emptyValue (field ++ ":"))

/-- A free text that starts with a word. -/
def readFreeWords (first : Token) (tokens : List Token) :
    Except SyntaxError (Operand × List Token) :=
  match wordRun Token.freeWord? tokens with
  | ([], _) => .error (.unexpectedToken first.text)
  | (words, rest) => .ok (.text (.words words), rest)

/-- An operand that is neither a negation nor a group. -/
def readLeaf : List Token → Except SyntaxError (Operand × List Token)
  | [] => .error .empty
  | .colon :: rest => .error (.emptyField (Token.fragment (.colon :: rest)))
  | .word field :: .colon :: rest =>
    let path := Path.ofText field
    if path.isValid then
      match readValue field rest with
      | .error e => .error e
      | .ok (value, rest) => .ok (.field path value, rest)
    else .error (.invalidField field)
  | .word word :: rest => readFreeWords (.word word) (.word word :: rest)
  | .literal .dateTime text :: rest =>
    readFreeWords (.literal .dateTime text) (.literal .dateTime text :: rest)
  | .literal .time text :: rest =>
    readFreeWords (.literal .time text) (.literal .time text :: rest)
  | .literal .regex text :: rest => .ok (.text (.regex text), rest)
  | .quoted quote text :: rest => .ok (.text (.quoted quote text), rest)
  | token :: _ => .error (.unexpectedToken token.text)

theorem length_wordRun_le (word? : Token → Option String) (tokens : List Token) :
    (wordRun word? tokens).2.length ≤ tokens.length := by
  fun_induction wordRun word? tokens with
  | case1 => simp
  | case2 => simp
  | case3 => simp
  | case4 token rest word hw hc words rest' heq ih =>
    simp only [heq, List.length_cons] at ih ⊢
    omega

/-! ### What parts without nesting are read from -/

section leaves
variable {tokens rest : List Token}

/-- A run that has words starts with one, in front of a shorter run. -/
theorem wordRun_eq_cons {word? : Token → Option String} {word : String} {words : List String}
    (h : wordRun word? tokens = (word :: words, rest)) :
    ∃ token after, tokens = token :: after ∧ word? token = some word ∧
      after.head? ≠ some .colon ∧ wordRun word? after = (words, rest) := by
  unfold wordRun at h
  split at h
  · cases h
  · next token after =>
    split at h
    · cases h
    · next hword =>
      split at h
      · cases h
      · next hcolon =>
        cases h
        exact ⟨token, after, rfl, hword, hcolon, rfl⟩

theorem length_wordRun_lt {word? : Token → Option String} {word : String} {words : List String}
    (h : wordRun word? tokens = (word :: words, rest)) : rest.length < tokens.length := by
  obtain ⟨token, after, rfl, -, -, hrun⟩ := wordRun_eq_cons h
  have hle := length_wordRun_le word? after
  simp only [hrun] at hle
  simp only [List.length_cons]
  omega

/-- A value is a run of words, a phrase or a literal. -/
theorem readValue_cases {field : String} {value : Value}
    (h : readValue field tokens = .ok (value, rest)) :
    (∃ word words after, tokens = .word word :: after ∧
      wordRun Token.valueWord? after = (words, rest) ∧ value = .words (word :: words)) ∨
    (∃ quote text, tokens = .quoted quote text :: rest ∧ value = .quoted quote text) ∨
    ∃ form text, tokens = .literal form text :: rest ∧ value = .literal form text := by
  unfold readValue at h
  split at h
  · next word after =>
    cases h
    exact .inl ⟨word, _, after, rfl, rfl, rfl⟩
  · cases h
    exact .inr (.inl ⟨_, _, rfl, rfl⟩)
  · cases h
    exact .inr (.inr ⟨_, _, rfl, rfl⟩)
  all_goals cases h

theorem readFreeWords_eq_ok_iff {first : Token} {operand : Operand} :
    readFreeWords first tokens = .ok (operand, rest) ↔
      ∃ word words, wordRun Token.freeWord? tokens = (word :: words, rest) ∧
        operand = .text (.words (word :: words)) := by
  unfold readFreeWords
  cases wordRun Token.freeWord? tokens with
  | mk words after =>
    cases words with
    | nil => simp
    | cons word words =>
      constructor
      · intro h
        cases h
        exact ⟨word, words, rfl, rfl⟩
      · rintro ⟨word, words, hrun, rfl⟩
        cases hrun
        rfl

/-- A leaf is a field with its value, a run of words, a regular expression or a phrase. -/
theorem readLeaf_cases {operand : Operand} (h : readLeaf tokens = .ok (operand, rest)) :
    (∃ field value after, tokens = .word field :: .colon :: after ∧
      (Path.ofText field).isValid = true ∧ readValue field after = .ok (value, rest) ∧
      operand = .field (Path.ofText field) value) ∨
    (∃ word words, wordRun Token.freeWord? tokens = (word :: words, rest) ∧
      operand = .text (.words (word :: words))) ∨
    (∃ text, tokens = .literal .regex text :: rest ∧ operand = .text (.regex text)) ∨
    ∃ quote text, tokens = .quoted quote text :: rest ∧ operand = .text (.quoted quote text) := by
  unfold readLeaf at h
  split at h
  · cases h
  · cases h
  · next field after =>
    dsimp only at h
    split at h
    · next hvalid =>
      split at h
      · cases h
      · next value rest' hvalue =>
        cases h
        exact .inl ⟨field, value, after, rfl, hvalid, hvalue, rfl⟩
    · cases h
  · exact .inr (.inl (readFreeWords_eq_ok_iff.mp h))
  · exact .inr (.inl (readFreeWords_eq_ok_iff.mp h))
  · exact .inr (.inl (readFreeWords_eq_ok_iff.mp h))
  · cases h
    exact .inr (.inr (.inl ⟨_, rfl, rfl⟩))
  · cases h
    exact .inr (.inr (.inr ⟨_, _, rfl, rfl⟩))
  · cases h

theorem readLeaf_field {field : String} {value : Value}
    (hvalid : (Path.ofText field).isValid = true)
    (h : readValue field tokens = .ok (value, rest)) :
    readLeaf (.word field :: .colon :: tokens) = .ok (.field (Path.ofText field) value, rest) := by
  rw [readLeaf]
  simp only [hvalid, h, if_true]

/-- A word, a date or a time, and no colon after it, start a free text. -/
theorem readLeaf_freeWord {token : Token} {word : String} (hword : token.freeWord? = some word)
    (hcolon : tokens.head? ≠ some .colon) :
    readLeaf (token :: tokens) = readFreeWords token (token :: tokens) := by
  cases token with
  | word text =>
    cases tokens with
    | nil => rfl
    | cons second tokens =>
      cases second
      case colon => simp at hcolon
      all_goals rfl
  | literal form text =>
    cases form
    case dateTime => rfl
    case time => rfl
    all_goals cases hword
  | _ => cases hword

theorem readLeaf_of_wordRun {word : String} {words : List String}
    (h : wordRun Token.freeWord? tokens = (word :: words, rest)) :
    readLeaf tokens = .ok (.text (.words (word :: words)), rest) := by
  obtain ⟨token, after, rfl, hword, hcolon, -⟩ := wordRun_eq_cons h
  rw [readLeaf_freeWord hword hcolon]
  exact readFreeWords_eq_ok_iff.mpr ⟨word, words, h, rfl⟩

theorem length_readValue_lt {field : String} {value : Value}
    (h : readValue field tokens = .ok (value, rest)) : rest.length < tokens.length := by
  rcases readValue_cases h with
    ⟨word, words, after, rfl, hrun, -⟩ | ⟨quote, text, rfl, -⟩ | ⟨form, text, rfl, -⟩
  · have hle := length_wordRun_le Token.valueWord? after
    simp only [hrun] at hle
    simp only [List.length_cons]
    omega
  · simp
  · simp

/-- A leaf takes at least one token. -/
theorem length_readLeaf_lt {operand : Operand} (h : readLeaf tokens = .ok (operand, rest)) :
    rest.length < tokens.length := by
  rcases readLeaf_cases h with ⟨field, value, after, rfl, -, hvalue, -⟩ | ⟨word, words, hrun, -⟩ |
    ⟨text, rfl, -⟩ | ⟨quote, text, rfl, -⟩
  · have hlt := length_readValue_lt hvalue
    simp only [List.length_cons]
    omega
  · exact length_wordRun_lt hrun
  · simp
  · simp

end leaves

/-! ### The recursion -/

/-- A part of a query read off the tokens, and the tokens after it. -/
structure Parsed (α : Type) (tokens : List Token) where
  value : α
  rest : List Token
  /-- At least one token was taken. -/
  shorter : rest.length < tokens.length

namespace Parsed

variable {α β : Type} {tokens after : List Token}

/-- The part and the tokens after it. -/
def plain (p : Parsed α tokens) : α × List Token := (p.value, p.rest)

/-- The part as the end of a larger one. -/
def extend (f : α → β) (h : after.length < tokens.length) (p : Parsed α after) :
    Parsed β tokens :=
  ⟨f p.value, p.rest, Nat.lt_trans p.shorter h⟩

theorem length_after_lt {token : Token} (p : Parsed α tokens) (h : p.rest = token :: after) :
    after.length < tokens.length := by
  have := p.shorter
  simp only [h, List.length_cons] at this
  omega

theorem map_plain_ok (p : Parsed α tokens) :
    (Except.ok p : Except SyntaxError _).map plain = .ok (p.value, p.rest) := rfl

theorem map_plain_extend (f : α → β) (h : after.length < tokens.length)
    (r : Except SyntaxError (Parsed α after)) :
    (r.map (extend f h)).map plain = (r.map plain).map fun (value, rest) => (f value, rest) := by
  cases r <;> rfl

end Parsed

mutual

-- A query, its first branch and the first operand of that start at the same token, so the measure
-- also counts down from the query to the operand.  All other calls are on fewer tokens.

/-- An operand inside `depth` groups and negations. -/
def parseOperand (g : Grammar) (depth : Nat) (tokens : List Token) :
    Except SyntaxError (Parsed Operand tokens) :=
  match tokens with
  | .not :: rest =>
    if operandFollows rest then
      if depth < g.maxDepth then
        (parseOperand g (depth + 1) rest).map (Parsed.extend .not (by simp))
      else .error (.tooDeep g.maxDepth)
    else .error (.danglingOperator Token.not.text)
  | .openParen :: rest =>
    if rest.isEmpty then .error (.unmatchedOpenParen (Token.fragment (.openParen :: rest)))
    else if depth < g.maxDepth then
      match parseQuery g (depth + 1) rest with
      | .error e => .error e
      | .ok query =>
        match hrest : query.rest with
        | .closeParen :: after =>
          .ok ⟨.group query.value, after, by
            have := query.length_after_lt hrest
            simp only [List.length_cons]; omega⟩
        | _ => .error (.unmatchedOpenParen (Token.fragment (.openParen :: rest)))
    else .error (.tooDeep g.maxDepth)
  | tokens =>
    match h : readLeaf tokens with
    | .error e => .error e
    | .ok (operand, rest) => .ok ⟨operand, rest, length_readLeaf_lt h⟩
termination_by (tokens.length, 0)

/-- A conjunction of operands. -/
def parseBranch (g : Grammar) (depth : Nat) (tokens : List Token) :
    Except SyntaxError (Parsed Branch tokens) :=
  match parseOperand g depth tokens with
  | .error e => .error e
  | .ok operand =>
    match hrest : operand.rest with
    | .and :: after =>
      have shorter := operand.length_after_lt hrest
      if operandFollows after then
        (parseBranch g depth after).map (Parsed.extend (operand.value :: ·) shorter)
      else .error (.danglingOperator Token.and.text)
    | [] => .ok ⟨[operand.value], operand.rest, operand.shorter⟩
    | .or :: _ => .ok ⟨[operand.value], operand.rest, operand.shorter⟩
    | .closeParen :: _ => .ok ⟨[operand.value], operand.rest, operand.shorter⟩
    | _ =>
      have shorter := operand.shorter
      if g.implicitConjunction then
        (parseBranch g depth operand.rest).map (Parsed.extend (operand.value :: ·) shorter)
      else .ok ⟨[operand.value], operand.rest, operand.shorter⟩
termination_by (tokens.length, 1)

/-- A disjunction of branches. -/
def parseQuery (g : Grammar) (depth : Nat) (tokens : List Token) :
    Except SyntaxError (Parsed Query tokens) :=
  match parseBranch g depth tokens with
  | .error e => .error e
  | .ok branch =>
    match hrest : branch.rest with
    | .or :: after =>
      have shorter := branch.length_after_lt hrest
      if operandFollows after then
        (parseQuery g depth after).map (Parsed.extend (branch.value :: ·) shorter)
      else .error (.danglingOperator Token.or.text)
    | _ => .ok ⟨[branch.value], branch.rest, branch.shorter⟩
termination_by (tokens.length, 2)

end

/-! ### The readers -/

/-- Reads an operand off the tokens. -/
def readOperand (g : Grammar) (depth : Nat) (tokens : List Token) :
    Except SyntaxError (Operand × List Token) :=
  (parseOperand g depth tokens).map Parsed.plain

/-- Reads a conjunction off the tokens. -/
def readBranch (g : Grammar) (depth : Nat) (tokens : List Token) :
    Except SyntaxError (Branch × List Token) :=
  (parseBranch g depth tokens).map Parsed.plain

/-- Reads a disjunction off the tokens. -/
def readQuery (g : Grammar) (depth : Nat) (tokens : List Token) :
    Except SyntaxError (Query × List Token) :=
  (parseQuery g depth tokens).map Parsed.plain

theorem readOperand_not (g : Grammar) (depth : Nat) (rest : List Token) :
    readOperand g depth (.not :: rest) =
      if operandFollows rest then
        if depth < g.maxDepth then
          (readOperand g (depth + 1) rest).map fun (operand, rest) => (.not operand, rest)
        else .error (.tooDeep g.maxDepth)
      else .error (.danglingOperator Token.not.text) := by
  rw [readOperand, readOperand, parseOperand]
  split
  · split
    · exact Parsed.map_plain_extend ..
    · rfl
  · rfl

theorem readOperand_openParen (g : Grammar) (depth : Nat) (rest : List Token) :
    readOperand g depth (.openParen :: rest) =
      if rest.isEmpty then .error (.unmatchedOpenParen (Token.fragment (.openParen :: rest)))
      else if depth < g.maxDepth then
        match readQuery g (depth + 1) rest with
        | .error e => .error e
        | .ok (query, .closeParen :: after) => .ok (.group query, after)
        | .ok _ => .error (.unmatchedOpenParen (Token.fragment (.openParen :: rest)))
      else .error (.tooDeep g.maxDepth) := by
  rw [readOperand, readQuery, parseOperand]
  split
  · rfl
  · split
    · cases parseQuery g (depth + 1) rest with
      | error e => rfl
      | ok query =>
        obtain ⟨value, after, h⟩ := query
        cases after with
        | nil => rfl
        | cons token after => cases token <;> rfl
    · rfl

/-- An operand that starts with neither `NOT` nor a parenthesis is a leaf. -/
theorem readOperand_leaf (g : Grammar) (depth : Nat) {tokens : List Token}
    (hnot : ∀ rest, tokens ≠ .not :: rest) (hopen : ∀ rest, tokens ≠ .openParen :: rest) :
    readOperand g depth tokens = readLeaf tokens := by
  rw [readOperand, parseOperand]
  · split
    · next e h => rw [h]; rfl
    · next operand rest h => exact h.symm
  · exact hnot
  · exact hopen

/-- After an operand come `AND` and more operands, the end of the branch, or, with the implicit
conjunction, more operands at once. -/
theorem readBranch_eq (g : Grammar) (depth : Nat) (tokens : List Token) :
    readBranch g depth tokens =
      match readOperand g depth tokens with
      | .error e => .error e
      | .ok (operand, .and :: rest) =>
        if operandFollows rest then
          (readBranch g depth rest).map fun (operands, rest) => (operand :: operands, rest)
        else .error (.danglingOperator Token.and.text)
      | .ok (operand, []) => .ok ([operand], [])
      | .ok (operand, .or :: rest) => .ok ([operand], .or :: rest)
      | .ok (operand, .closeParen :: rest) => .ok ([operand], .closeParen :: rest)
      | .ok (operand, rest) =>
        if g.implicitConjunction then
          (readBranch g depth rest).map fun (operands, rest) => (operand :: operands, rest)
        else .ok ([operand], rest) := by
  rw [readBranch, readOperand, parseBranch]
  cases parseOperand g depth tokens with
  | error e => rfl
  | ok operand =>
    obtain ⟨value, rest, h⟩ := operand
    cases rest with
    | nil => rfl
    | cons token rest =>
      have joined (after : List Token) (h : after.length < tokens.length) :
          ((parseBranch g depth after).map (Parsed.extend (value :: ·) h)).map Parsed.plain =
            (readBranch g depth after).map fun (operands, rest) => (value :: operands, rest) :=
        Parsed.map_plain_extend ..
      cases token
      case or => rfl
      case closeParen => rfl
      all_goals
        simp only [Parsed.map_plain_ok]
        split
        · exact joined ..
        · rfl

/-- After a branch come `OR` and more branches, or the end of the query. -/
theorem readQuery_eq (g : Grammar) (depth : Nat) (tokens : List Token) :
    readQuery g depth tokens =
      match readBranch g depth tokens with
      | .error e => .error e
      | .ok (branch, .or :: rest) =>
        if operandFollows rest then
          (readQuery g depth rest).map fun (branches, rest) => (branch :: branches, rest)
        else .error (.danglingOperator Token.or.text)
      | .ok (branch, rest) => .ok ([branch], rest) := by
  rw [readQuery, readBranch, parseQuery]
  cases parseBranch g depth tokens with
  | error e => rfl
  | ok branch =>
    obtain ⟨value, rest, h⟩ := branch
    cases rest with
    | nil => rfl
    | cons token rest =>
      cases token
      case or =>
        simp only [Parsed.map_plain_ok]
        split
        · exact Parsed.map_plain_extend ..
        · rfl
      all_goals rfl

/-- Reads a query that takes all of the tokens. -/
def Query.ofTokens (g : Grammar) (tokens : List Token) : Except SyntaxError Query :=
  match readQuery g 0 tokens with
  | .error e => .error e
  | .ok (query, []) => .ok query
  | .ok (_, .closeParen :: rest) =>
    .error (.unmatchedCloseParen (Token.fragment (.closeParen :: rest)))
  | .ok (_, token :: _) => .error (.unexpectedToken token.text)

/-- Reads a query text. -/
def Query.parse (g : Grammar) (text : String) : Except SyntaxError Query :=
  match tokenize text with
  | .error e => .error e
  | .ok tokens => Query.ofTokens g tokens

end QueryFilter
