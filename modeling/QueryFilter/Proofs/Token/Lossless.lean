import Mathlib
import QueryFilter.Proofs.Token.Boundary

/-! # Texts, lexemes and tokens

A text is cut into lexemes: tokens, and pieces that no token starts with.  `lexemes?` cuts off one
lexeme after the other and asks that nothing but blanks is left in the end, so it could refuse a
text as a whole.  It never does (`exists_lexemes`): whatever a text starts with, it starts with a
lexeme.

`tokenize` gives the tokens of a text, or what is wrong with its leftmost malformed lexeme.  By
`tokenize_lossless` it leaves out blanks and nothing else: the text is that of its tokens with
blanks around them (`Token.Woven`), up to the place that an error comes from, and at that place no
token of the kind that was opened can be read (`Token.MalformedAt`). -/

namespace QueryFilter

/-! ### Tokens with blanks around them -/

/-- The text is that of the tokens in their order, with blanks before, between and after them. -/
inductive Token.Woven : List Token → List Char → Prop
  | blanks {gap : List Char} (hgap : ∀ c ∈ gap, isBlank c = true) : Woven [] gap
  | token {gap cs : List Char} {token : Token} {tokens : List Token}
      (hgap : ∀ c ∈ gap, isBlank c = true) (more : Woven tokens cs) :
      Woven (token :: tokens) (gap ++ token.text.toList ++ cs)

/-- What is wrong with a text that no token starts with: a phrase, a range or a regular expression
is opened and cannot be read, or the text starts with a closing bracket. -/
inductive Token.MalformedAt : SyntaxError → List Char → Prop
  | quote {quote : Quote} {cs : List Char} (h : phrase quote.mark (quote.mark :: cs) = none) :
      MalformedAt (.unterminatedQuote (String.ofList (quote.mark :: cs))) (quote.mark :: cs)
  | range {cs : List Char} (h : Reader.bracketed ('[' :: cs) = none) :
      MalformedAt (.unterminatedRange (String.ofList ('[' :: cs))) ('[' :: cs)
  | regex {cs : List Char} (h : Reader.regexLiteral ('/' :: cs) = none) :
      MalformedAt (.unterminatedRegex (String.ofList ('/' :: cs))) ('/' :: cs)
  | bracket {cs : List Char} : MalformedAt (.unexpectedCharacter "]") (']' :: cs)

/-- The blanks at the beginning of a text, and the rest of it. -/
theorem exists_gap (cs : List Char) :
    ∃ gap, (∀ c ∈ gap, isBlank c = true) ∧ cs = gap ++ trimStart cs := by
  refine ⟨cs.takeWhile isBlank, ?_, ?_⟩
  · intro c hc
    exact List.all_eq_true.mp List.all_takeWhile c hc
  · exact (List.takeWhile_append_dropWhile (p := isBlank) (l := cs)).symm

/-! ### Lexemes -/

/-- A piece of a text: a token, or a malformed piece with what is wrong with it. -/
inductive Lexeme where
  | token (token : Token)
  | malformed (error : SyntaxError)
deriving DecidableEq, Repr

namespace Lexeme

/-- A malformed piece that starts with this character goes on to the end of the text. -/
def takesAll (c : Char) : Bool := c == '"' || c == '\'' || c == '[' || c == '/'

/-- The lexeme that a text starts with, and the rest of the text. -/
def read? (cs : List Char) : Option (Lexeme × List Char) :=
  match Token.read? cs, cs with
  | some (t, rest), _ => some (.token t, rest)
  | none, c :: tail =>
    some (.malformed (Token.malformed c tail), if takesAll c then [] else tail)
  | none, [] => none

theorem read?_of_token {cs rest : List Char} {token : Token}
    (h : Token.read? cs = some (token, rest)) : read? cs = some (.token token, rest) := by
  simp only [read?, h]

theorem read?_of_none {c : Char} {tail : List Char} (h : Token.read? (c :: tail) = none) :
    read? (c :: tail) =
      some (.malformed (Token.malformed c tail), if takesAll c then [] else tail) := by
  simp only [read?, h]

/-- Every text that is not empty starts with a lexeme. -/
theorem read?_isSome (c : Char) (tail : List Char) : (read? (c :: tail)).isSome = true := by
  cases h : Token.read? (c :: tail) with
  | none =>
      rw [read?_of_none h]
      rfl
  | some p =>
      obtain ⟨token, rest⟩ := p
      rw [read?_of_token h]
      rfl

/-- Every lexeme takes at least one character. -/
theorem length_rest_lt {cs rest : List Char} {lexeme : Lexeme}
    (h : read? cs = some (lexeme, rest)) : rest.length < cs.length := by
  unfold read? at h
  split at h
  · next htoken =>
    cases h
    exact Token.length_rest_lt htoken
  · next c tail _ =>
    simp only [Option.some.injEq, Prod.mk.injEq] at h
    rw [← h.2, List.length_cons]
    split
    · exact Nat.succ_pos _
    · exact Nat.lt_succ_self _
  · cases h

/-- Cuts lexemes off a text for as long as there is one, blanks in front of each. -/
def run (cs : List Char) : List Lexeme × List Char :=
  match h : read? (trimStart cs) with
  | none => ([], cs)
  | some (lexeme, rest) =>
    have : rest.length < cs.length := Nat.lt_of_lt_of_le (length_rest_lt h) (length_trimStart_le cs)
    let (lexemes, rest) := run rest
    (lexeme :: lexemes, rest)
termination_by cs.length

/-- The tokens, if there are only tokens, or the error of the first malformed lexeme. -/
def tokens : List Lexeme → Except SyntaxError (List Token)
  | [] => .ok []
  | .token t :: lexemes => (tokens lexemes).map (t :: ·)
  | .malformed error :: _ => .error error

theorem tokens_map (ts : List Token) : tokens (ts.map .token) = .ok ts := by
  induction ts with
  | nil => rfl
  | cons t ts ih =>
      rw [List.map_cons, tokens, ih]
      rfl

theorem tokens_malformed (ts : List Token) (error : SyntaxError) (others : List Lexeme) :
    tokens (ts.map .token ++ .malformed error :: others) = .error error := by
  induction ts with
  | nil => rfl
  | cons t ts ih =>
      rw [List.map_cons, List.cons_append, tokens, ih]
      rfl

end Lexeme

/-- The lexemes of a text, if they and the blanks between them are all of it. -/
def lexemes? (cs : List Char) : Option (List Lexeme) :=
  if (trimStart (Lexeme.run cs).2).isEmpty then some (Lexeme.run cs).1 else none

section lexemes
variable {cs rest : List Char}

theorem lexemes?_blank (h : trimStart cs = []) : lexemes? cs = some [] := by
  have hread : Lexeme.read? (trimStart cs) = none := by rw [h]; rfl
  have hrun : Lexeme.run cs = ([], cs) := by
    rw [Lexeme.run]
    split
    · rfl
    · next hsome =>
      rw [hread] at hsome
      cases hsome
  rw [lexemes?, hrun, h]
  rfl

theorem lexemes?_cons {lexeme : Lexeme} (h : Lexeme.read? (trimStart cs) = some (lexeme, rest)) :
    lexemes? cs = (lexemes? rest).map (lexeme :: ·) := by
  have hrun : Lexeme.run cs = (lexeme :: (Lexeme.run rest).1, (Lexeme.run rest).2) := by
    rw [Lexeme.run]
    split
    · next hnone =>
      rw [h] at hnone
      cases hnone
    · next hsome =>
      rw [h] at hsome
      cases hsome
      rfl
  rw [lexemes?, lexemes?, hrun]
  dsimp only
  split
  · rfl
  · rfl

/-- **No text is refused as a whole**: it has lexemes, and they are all of it but blanks. -/
theorem exists_lexemes (cs : List Char) : ∃ lexemes, lexemes? cs = some lexemes := by
  induction hn : cs.length using Nat.strongRecOn generalizing cs with
  | ind n ih =>
      subst hn
      cases hblank : trimStart cs with
      | nil => exact ⟨[], lexemes?_blank hblank⟩
      | cons c tail =>
          obtain ⟨⟨lexeme, rest⟩, hread⟩ := Option.isSome_iff_exists.mp (Lexeme.read?_isSome c tail)
          have hlen : rest.length < cs.length := by
            have h1 := Lexeme.length_rest_lt hread
            have h2 := length_trimStart_le cs
            rw [hblank] at h2
            omega
          obtain ⟨lexemes, hrest⟩ := ih rest.length hlen rest rfl
          rw [← hblank] at hread
          exact ⟨lexeme :: lexemes, by rw [lexemes?_cons hread, hrest]; rfl⟩

end lexemes

/-! ### Where no token can be read -/

namespace Token

theorem readWord_isSome {c : Char} (h : isWordStart c = true) (cs : List Char) :
    (readWord (c :: cs)).isSome = true := by
  simp [readWord, Reader.wordRun, Reader.seq, Reader.one, Reader.run, h]

/-- Where the text starts with a character that opens nothing, there is no token only if it is a
closing bracket. -/
theorem eq_closeBracket_of_read?_eq_none {c : Char} {cs : List Char} (hblank : isBlank c = false)
    (hopening : isOpening c = false) (h : read? (c :: cs) = none) : c = ']' := by
  rw [read?_of_not_opening hopening, readPlain] at h
  simp only [Option.or_eq_none_iff] at h
  obtain ⟨-, -, hcolon, hword⟩ := h
  apply Decidable.byContradiction
  intro hbracket
  have hne : c ≠ ':' := by
    rintro rfl
    cases hcolon
  simp only [isOpening, List.contains_eq_mem, List.mem_cons, List.not_mem_nil, or_false,
    decide_eq_false_iff_not, not_or] at hopening
  have hstart : isWordStart c = true := by
    simp [isWordStart, isWordChar, hblank, hopening, hne, hbracket]
  have hsome := readWord_isSome hstart cs
  rw [hword] at hsome
  cases hsome

theorem malformedAt_of_quote (quote : Quote) {cs : List Char}
    (h : readQuoted quote (quote.mark :: cs) = none) :
    MalformedAt (malformed quote.mark cs) (quote.mark :: cs) := by
  have herror : malformed quote.mark cs =
      .unterminatedQuote (String.ofList (quote.mark :: cs)) := by
    cases quote <;> rfl
  rw [herror]
  exact .quote (Option.map_eq_none_iff.mp h)

/-- Where no token can be read, the error says why. -/
theorem malformedAt_of_read?_eq_none {c : Char} {cs : List Char} (hblank : isBlank c = false)
    (h : read? (c :: cs) = none) : MalformedAt (malformed c cs) (c :: cs) := by
  cases hc : isOpening c with
  | false =>
      obtain rfl := eq_closeBracket_of_read?_eq_none hblank hc h
      exact .bracket
  | true =>
      simp only [isOpening, List.contains_eq_mem, List.mem_cons, List.not_mem_nil, or_false,
        decide_eq_true_eq] at hc
      rcases hc with rfl | rfl | rfl | rfl | rfl | rfl
      · cases h
      · cases h
      · rw [read?_doubleQuote] at h
        exact malformedAt_of_quote .double h
      · rw [read?_singleQuote] at h
        exact malformedAt_of_quote .single h
      · rw [read?_openBracket] at h
        exact .range (Option.map_eq_none_iff.mp h)
      · rw [read?_slash] at h
        exact .regex (Option.map_eq_none_iff.mp h)

/-! ### Scanning -/

/-- What the answer of the scanner says about the text and its lexemes. -/
def Accounts (cs : List Char) (lexemes : List Lexeme) : Except SyntaxError (List Token) → Prop
  | .ok tokens => lexemes = tokens.map .token ∧ Woven tokens cs
  | .error error =>
    ∃ tokens others before rest, lexemes = tokens.map .token ++ .malformed error :: others ∧
      cs = before ++ rest ∧ Woven tokens before ∧ MalformedAt error rest

/-- A token in front of a text that is accounted for. -/
theorem Accounts.cons {cs rest : List Char} {token : Token} {lexemes : List Lexeme}
    {answer : Except SyntaxError (List Token)}
    (hread : read? (trimStart cs) = some (token, rest)) (h : Accounts rest lexemes answer) :
    Accounts cs (.token token :: lexemes) (answer.map (token :: ·)) := by
  obtain ⟨gap, hgap, hcs⟩ := exists_gap cs
  rw [(read?_eq_some hread).1, ← List.append_assoc] at hcs
  subst hcs
  cases answer with
  | ok tokens =>
      obtain ⟨rfl, hwoven⟩ := h
      exact ⟨rfl, .token hgap hwoven⟩
  | error e =>
      obtain ⟨tokens, others, before, after, rfl, rfl, hwoven, hat⟩ := h
      exact ⟨token :: tokens, others, gap ++ token.text.toList ++ before, after, rfl,
        (List.append_assoc _ _ _).symm, .token hgap hwoven, hat⟩

/-- The answer is the tokens of the lexemes, or the error of the first malformed one. -/
theorem Accounts.tokens_eq {cs : List Char} {lexemes : List Lexeme}
    {answer : Except SyntaxError (List Token)} (h : Accounts cs lexemes answer) :
    Lexeme.tokens lexemes = answer := by
  cases answer with
  | ok tokens =>
      obtain ⟨rfl, -⟩ := h
      exact Lexeme.tokens_map tokens
  | error e =>
      obtain ⟨tokens, others, -, -, rfl, -⟩ := h
      exact Lexeme.tokens_malformed tokens e others

theorem scan_of_read?_eq_none {cs : List Char} {c : Char} {tail : List Char}
    (hblank : trimStart cs = c :: tail) (h : read? (c :: tail) = none) :
    scan cs = .error (malformed c tail) := by
  rw [scan_eq, hblank]
  simp only [h]

/-- The scanner accounts for every text. -/
theorem scan_accounts (cs : List Char) :
    ∃ lexemes, lexemes? cs = some lexemes ∧ Accounts cs lexemes (scan cs) := by
  induction hn : cs.length using Nat.strongRecOn generalizing cs with
  | ind n ih =>
      subst hn
      obtain ⟨gap, hgap, hcs⟩ := exists_gap cs
      cases hblank : trimStart cs with
      | nil =>
          rw [hblank, List.append_nil] at hcs
          rw [scan_eq, hblank]
          exact ⟨[], lexemes?_blank hblank, rfl, hcs ▸ .blanks hgap⟩
      | cons c tail =>
          cases hread : read? (c :: tail) with
          | none =>
              -- the malformed piece is the next lexeme, and the lexemes go on after it
              obtain ⟨others, hothers⟩ := exists_lexemes (if Lexeme.takesAll c then [] else tail)
              have hlexeme := Lexeme.read?_of_none hread
              have hc := isBlank_of_trimStart_eq_cons hblank
              have hat := malformedAt_of_read?_eq_none hc hread
              rw [scan_of_read?_eq_none hblank hread]
              rw [hblank] at hcs
              rw [← hblank] at hlexeme
              refine ⟨.malformed (malformed c tail) :: others, ?_, ?_⟩
              · rw [lexemes?_cons hlexeme, hothers]
                rfl
              · exact ⟨[], others, gap, c :: tail, rfl, hcs, .blanks hgap, hat⟩
          | some p =>
              obtain ⟨token, rest⟩ := p
              have hlen : rest.length < cs.length := by
                have h1 := length_rest_lt hread
                have h2 := length_trimStart_le cs
                rw [hblank] at h2
                omega
              obtain ⟨lexemes, hlexemes, haccounts⟩ := ih rest.length hlen rest rfl
              rw [← hblank] at hread
              rw [scan_of_read? hread]
              refine ⟨.token token :: lexemes, ?_, haccounts.cons hread⟩
              rw [lexemes?_cons (Lexeme.read?_of_token hread), hlexemes]
              rfl

end Token

/-- **Tokenizing is lossless and total.**  Every text has lexemes.  If all of them are tokens, the
text is that of the tokens with blanks around them.  Otherwise the error is that of the leftmost
malformed lexeme: up to its place the text is that of tokens with blanks around them, and there no
token can be read. -/
theorem tokenize_lossless (text : String) :
    ∃ lexemes, lexemes? text.toList = some lexemes ∧ tokenize text = Lexeme.tokens lexemes ∧
      match tokenize text with
      | .ok tokens => lexemes = tokens.map .token ∧ Token.Woven tokens text.toList
      | .error error =>
        ∃ tokens others before rest, lexemes = tokens.map .token ++ .malformed error :: others ∧
          text.toList = before ++ rest ∧ Token.Woven tokens before ∧
          Token.MalformedAt error rest := by
  obtain ⟨lexemes, hlexemes, haccounts⟩ := Token.scan_accounts text.toList
  exact ⟨lexemes, hlexemes, haccounts.tokens_eq.symm, haccounts⟩

/-- A phrase, a range, a date and words with blanks around them.  In the other text the bracket is
the leftmost malformed lexeme, and the slash after it is not looked at. -/
theorem tokenize_lossless_phrase :
    ∃ (text torn : String) (tokens : List Token) (lexemes : List Lexeme) (error : SyntaxError),
      text = " name:\"b (c)\" \tage:[1 TO 5] 2024-01-15T10:30 AND John's" ∧
      torn = "a:'b c' ] 10:30 /x" ∧
      tokens = [.word "name", .colon, .quoted .double "b (c)", .word "age", .colon,
        .literal .bracketed "[1 TO 5]", .literal .dateTime "2024-01-15T10:30", .and,
        .word "John's"] ∧
      lexemes = [.token (.word "a"), .token .colon, .token (.quoted .single "b c"),
        .malformed error, .token (.literal .time "10:30"),
        .malformed (.unterminatedRegex "/x")] ∧
      error = .unexpectedCharacter "]" ∧
      tokenize text = .ok tokens ∧ lexemes? text.toList = some (tokens.map .token) ∧
      Token.Woven tokens text.toList ∧
      tokenize torn = .error error ∧ lexemes? torn.toList = some lexemes ∧
      ∃ front others before rest, lexemes = front.map .token ++ .malformed error :: others ∧
        torn.toList = before ++ rest ∧ Token.Woven front before ∧
        Token.MalformedAt error rest := by
  refine ⟨_, _, _, _, _, rfl, rfl, rfl, rfl, rfl, ?_⟩
  have htext : tokenize " name:\"b (c)\" \tage:[1 TO 5] 2024-01-15T10:30 AND John's" =
      .ok [.word "name", .colon, .quoted .double "b (c)", .word "age", .colon,
        .literal .bracketed "[1 TO 5]", .literal .dateTime "2024-01-15T10:30", .and,
        .word "John's"] := by
    cbv
  have htorn : tokenize "a:'b c' ] 10:30 /x" = .error (.unexpectedCharacter "]") := by
    cbv
  have hpieces : lexemes? "a:'b c' ] 10:30 /x".toList =
      some [.token (.word "a"), .token .colon, .token (.quoted .single "b c"),
        .malformed (.unexpectedCharacter "]"), .token (.literal .time "10:30"),
        .malformed (.unterminatedRegex "/x")] := by
    cbv
  obtain ⟨whole, hwhole, -, haccount⟩ :=
    tokenize_lossless " name:\"b (c)\" \tage:[1 TO 5] 2024-01-15T10:30 AND John's"
  rw [htext] at haccount
  obtain ⟨rfl, hwoven⟩ := haccount
  obtain ⟨lexemes, hlexemes, -, haccount⟩ := tokenize_lossless "a:'b c' ] 10:30 /x"
  rw [htorn] at haccount
  obtain rfl := Option.some.inj (hpieces.symm.trans hlexemes)
  exact ⟨htext, hwhole, hwoven, htorn, hpieces, haccount⟩

end QueryFilter
