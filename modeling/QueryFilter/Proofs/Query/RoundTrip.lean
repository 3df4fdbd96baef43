import Mathlib
import QueryFilter.Proofs.Query.Yield
import QueryFilter.Proofs.Token.Reread

/-! # Writing a query and reading it again

A query that was parsed is written out as a text that parses to the same query (`parse_text`), with
or without the implicit conjunction, since every operator is spelled in it.  Two steps lead there.

* Tokens: what was derived from some tokens is derived again from the tokens of the part
  (`Derives.again`), where every `AND` is in its place.
* Characters: the text of a part is cut into the tokens of the part in front of anything that ends
  a token (`Written`).  For this no field name and no word of a free text may begin with a digit: in
  front of a colon or of another word it could be taken for a part of a time or a date. -/

namespace QueryFilter

/-! ### Reading the tokens of a leaf -/

section leaves
variable {tokens rest tail : List Token}

/-- Where no operand can start, there is the end or one of three tokens. -/
theorem mem_of_operandFollows (h : operandFollows tail = false) :
    ∀ token ∈ tail.head?, token ∈ [Token.closeParen, .and, .or] := by
  intro token htoken
  cases tail with
  | nil => cases htoken
  | cons other tail =>
      cases htoken
      cases token
      case and => simp
      case or => simp
      case closeParen => simp
      all_goals cases h

theorem head?_map_append_ne_colon {token : String → Token} (htoken : ∀ word, token word ≠ .colon)
    (htail : operandFollows tail = false) (words : List String) :
    (words.map token ++ tail).head? ≠ some .colon := by
  cases words with
  | nil =>
      intro h
      simpa using mem_of_operandFollows htail _ h
  | cons word words => simpa using htoken word

theorem wordRun_of_operandFollows {word? : Token → Option String}
    (hword : ∀ token ∈ [Token.closeParen, .and, .or], word? token = none)
    (htail : operandFollows tail = false) : wordRun word? tail = ([], tail) := by
  cases tail with
  | nil => rfl
  | cons token tail => rw [wordRun, hword token (mem_of_operandFollows htail token rfl)]

/-- The tokens of words, up to a place where no operand can start, are read as the words. -/
theorem wordRun_map {word? : Token → Option String} {token : String → Token}
    (hends : ∀ token ∈ [Token.closeParen, .and, .or], word? token = none)
    (hword : ∀ word, word? (token word) = some word) (hcolon : ∀ word, token word ≠ .colon)
    (htail : operandFollows tail = false) (words : List String) :
    wordRun word? (words.map token ++ tail) = (words, tail) := by
  induction words with
  | nil => exact wordRun_of_operandFollows hends htail
  | cons word words ih =>
      have hnext := head?_map_append_ne_colon hcolon htail words
      rw [List.map_cons, List.cons_append, wordRun, hword]
      simp only [if_neg hnext, ih]

theorem wordRun_valueWords (htail : operandFollows tail = false) (words : List String) :
    wordRun Token.valueWord? (words.map .word ++ tail) = (words, tail) :=
  wordRun_map (by simp [Token.valueWord?]) (fun _ => rfl) (by simp) htail words

theorem freeWord?_ofFreeWord (word : String) : (Token.ofFreeWord word).freeWord? = some word := by
  unfold Token.ofFreeWord
  split_ifs <;> rfl

theorem ofFreeWord_ne_colon (word : String) : Token.ofFreeWord word ≠ .colon := by
  unfold Token.ofFreeWord
  split_ifs <;> simp

theorem wordRun_freeWords (htail : operandFollows tail = false) (words : List String) :
    wordRun Token.freeWord? (words.map Token.ofFreeWord ++ tail) = (words, tail) :=
  wordRun_map (by simp [Token.freeWord?]) freeWord?_ofFreeWord ofFreeWord_ne_colon htail words

theorem readValue_again {field : String} {value : Value}
    (h : readValue field tokens = .ok (value, rest)) (htail : operandFollows tail = false) :
    readValue field (value.tokens ++ tail) = .ok (value, tail) := by
  rcases readValue_cases h with ⟨word, words, after, -, -, rfl⟩ | ⟨quote, text, -, rfl⟩ |
    ⟨form, text, -, rfl⟩
  · simp only [Value.tokens, List.map_cons, List.cons_append, readValue, wordRun_valueWords htail]
  · rfl
  · rfl

/-- A leaf is read again off its own tokens, where no operand follows. -/
theorem readLeaf_again {operand : Operand} (h : readLeaf tokens = .ok (operand, rest))
    (htail : operandFollows tail = false) :
    readLeaf (operand.tokens ++ tail) = .ok (operand, tail) := by
  rcases readLeaf_cases h with ⟨field, value, after, -, hvalid, hvalue, rfl⟩ |
    ⟨word, words, -, rfl⟩ | ⟨text, -, rfl⟩ | ⟨quote, text, -, rfl⟩
  · rw [Operand.tokens, Path.text_ofText, List.cons_append, List.cons_append]
    exact readLeaf_field hvalid (readValue_again hvalue htail)
  · exact readLeaf_of_wordRun (wordRun_freeWords htail (word :: words))
  · rfl
  · rfl

end leaves

/-! ### Reading the tokens of a part -/

section parts
variable {g g' : Grammar} {depth : Nat} {tokens rest tail : List Token}

/-- An operand can start with the tokens of a proper operand. -/
theorem Operand.Proper.operandFollows_tokens {operand : Operand}
    (h : operand.Proper IsProperField IsProperText) (tail : List Token) :
    operandFollows (operand.tokens ++ tail) = true := by
  cases h with
  | field h => rfl
  | @text text h =>
      cases text with
      | words words =>
          have hwords : words ≠ [] := by
            rintro rfl
            exact h rfl
          obtain ⟨word, words, rfl⟩ := List.exists_cons_of_ne_nil hwords
          rw [Operand.tokens, FreeText.tokens, List.map_cons, List.cons_append, Token.ofFreeWord]
          split_ifs <;> rfl
      | quoted quote text => rfl
      | regex text => rfl
  | not h => rfl
  | group => rfl

theorem Derives.operandFollows_tokens {part : Part} (h : Derives g depth tokens part rest)
    (tail : List Token) : operandFollows (part.tokens ++ tail) = true := by
  induction h generalizing tail with
  | not => rfl
  | group => rfl
  | leaf read => exact (readLeaf_proper read).operandFollows_tokens tail
  | last _ _ _ ih => exact ih tail
  | and _ _ more ih _ =>
      rw [Part.tokens, Branch.tokens_cons _ more.proper.1, List.append_assoc]
      exact ih _
  | next _ _ _ more ih _ =>
      rw [Part.tokens, Branch.tokens_cons _ more.proper.1, List.append_assoc]
      exact ih _
  | single _ _ ih => exact ih tail
  | or _ _ more ih _ =>
      rw [Part.tokens, Query.tokens_cons _ more.proper.1, List.append_assoc]
      exact ih _

/-- What can come after a part for it to end there: no operand, and none of the operators with which
it could go on. -/
def Part.EndsAt (tail : List Token) : Part → Prop
  | .operand _ => operandFollows tail = false
  | .branch _ => operandFollows tail = false ∧ tail.head? ≠ some .and
  | .query _ => operandFollows tail = false ∧ tail.head? ≠ some .and ∧ tail.head? ≠ some .or

/-- **A part is derived again from its own tokens**, by any grammar that allows the same depth: no
operator has to be implied. -/
theorem Derives.again (hdepth : g'.maxDepth = g.maxDepth) {part : Part}
    (h : Derives g depth tokens part rest) (hends : part.EndsAt tail) :
    Derives g' depth (part.tokens ++ tail) part tail := by
  induction h generalizing tail with
  | not _ shallow inner ih =>
      exact .not (inner.operandFollows_tokens tail) (hdepth ▸ shallow) (ih hends)
  | @group _ _ _ query shallow _ ih =>
      have hclose : (query.tokens ++ [Token.closeParen]) ++ tail =
          query.tokens ++ .closeParen :: tail := by simp
      rw [Part.tokens, Operand.tokens, List.cons_append, hclose]
      exact .group (hdepth ▸ shallow) (ih ⟨rfl, by simp, by simp⟩)
  | leaf read => exact .leaf (readLeaf_again read hends)
  | last _ _ _ ih =>
      refine .last (ih hends.1) hends.2 ?_
      rw [hends.1]
      simp
  | and _ _ more ih ih' =>
      rw [Part.tokens, Branch.tokens_cons _ more.proper.1, List.append_assoc]
      exact .and (ih rfl) (more.operandFollows_tokens tail) (ih' hends)
  | next _ _ _ more ih ih' =>
      rw [Part.tokens, Branch.tokens_cons _ more.proper.1, List.append_assoc]
      exact .and (ih rfl) (more.operandFollows_tokens tail) (ih' hends)
  | single _ _ ih => exact .single (ih ⟨hends.1, hends.2.1⟩) hends.2.2
  | or _ _ more ih ih' =>
      rw [Part.tokens, Query.tokens_cons _ more.proper.1, List.append_assoc]
      exact .or (ih ⟨rfl, by simp⟩) (more.operandFollows_tokens tail) (ih' hends)

end parts

/-! ### Cutting a written text -/

/-- In front of anything that ends a token, the text is cut into these tokens. -/
def Written (text : String) (tokens : List Token) : Prop :=
  ∀ tail, EndsToken tail →
    Token.scan (text.toList ++ tail) = (Token.scan tail).map (tokens ++ ·)

section written
variable {text text' : String} {tokens tokens' : List Token}

theorem Written.tokenize_eq (h : Written text tokens) : tokenize text = .ok tokens := by
  have hscan := h [] .nil
  have hempty : Token.scan [] = .ok [] := by cbv
  rw [List.append_nil, hempty] at hscan
  simpa [tokenize, Except.map] using hscan

theorem written_token {token : Token} (h : token.IsLexical) : Written token.text [token] :=
  fun _ hends => Token.scan_again h hends

theorem toList_words (word second : String) (words : List String) (tail : List Char) :
    (" ".intercalate (word :: second :: words)).toList ++ tail =
      word.toList ++ ' ' :: ((" ".intercalate (second :: words)).toList ++ tail) := by
  rw [String.intercalate_cons_cons]
  simp

theorem clock_words {words : List String} (hwords : words ≠ [])
    (h : ∀ word ∈ words, (Token.word word).IsLexical) {tail : List Char} (hends : EndsToken tail) :
    Reader.clock ((" ".intercalate words).toList ++ tail) = none := by
  have hcolon : ∀ word ∈ words, ':' ∉ word.toList := by
    intro word hword hmem
    obtain ⟨⟨cs, rest, hrun⟩, -⟩ := (h word hword).word
    cases Reader.only_wordRun _ _ _ hrun _ hmem
  cases words with
  | nil => exact absurd rfl hwords
  | cons word words =>
      cases words with
      | nil =>
          rw [String.intercalate_singleton]
          exact clock_word (hcolon word (by simp)) hends
      | cons second words =>
          have hnone := eq_none_of_takes takes_colon_clock Token.exact_clock (hcolon word (by simp))
          rw [toList_words, Reader.stops_clock rfl, hnone]
          rfl

/-- Words with spaces between them. -/
theorem written_words {words : List String} (hwords : words ≠ [])
    (h : ∀ word ∈ words, (Token.word word).IsLexical) :
    Written (" ".intercalate words) (words.map .word) := by
  induction words with
  | nil => exact absurd rfl hwords
  | cons word words ih =>
      have hword := h word (by simp)
      cases words with
      | nil =>
          rw [String.intercalate_singleton]
          exact written_token hword
      | cons second words =>
          have hmore : ∀ word ∈ second :: words, (Token.word word).IsLexical :=
            fun word hw => h word (List.mem_cons_of_mem _ hw)
          have ih := ih (by simp) hmore
          intro tail hends
          have hspace := Token.scan_again hword (.space (clock_words (by simp) hmore hends))
          rw [Token.text, Token.scan_cons_blank rfl, ih tail hends] at hspace
          rw [toList_words, hspace]
          cases Token.scan tail <;> rfl

theorem Written.field_of_scan {name : String}
    (hscan : ∀ tail, Token.scan (name.toList ++ ':' :: tail) =
      (Token.scan tail).map fun more => .word name :: .colon :: more)
    (h : Written text tokens) :
    Written (name ++ ":" ++ text) (.word name :: .colon :: tokens) := by
  intro tail hends
  have htext : (name ++ ":" ++ text).toList ++ tail =
      name.toList ++ ':' :: (text.toList ++ tail) := by simp
  rw [htext, hscan, h tail hends]
  cases Token.scan tail <;> rfl

theorem Written.field {name : String} (hname : (Token.word name).IsLexical)
    (hdigit : beginsWithDigit name.toList = false) (h : Written text tokens) :
    Written (name ++ ":" ++ text) (.word name :: .colon :: tokens) :=
  h.field_of_scan (Token.scan_word_colon hname hdigit)

theorem Written.not (h : Written text tokens) : Written ("NOT " ++ text) (.not :: tokens) := by
  intro tail hends
  have htext : ("NOT " ++ text).toList ++ tail =
      Token.not.text.toList ++ ' ' :: (text.toList ++ tail) := by simp [Token.text]
  rw [htext, Token.scan_operator_space (by simp), h tail hends]
  cases Token.scan tail <;> rfl

theorem Written.parenthesized (h : Written text tokens) :
    Written ("(" ++ text ++ ")") (.openParen :: (tokens ++ [.closeParen])) := by
  intro tail _
  have htext : ("(" ++ text ++ ")").toList ++ tail =
      '(' :: (text.toList ++ ')' :: tail) := by simp
  have hopen : Token.scan ('(' :: (text.toList ++ ')' :: tail)) =
      (Token.scan (text.toList ++ ')' :: tail)).map (.openParen :: ·) :=
    Token.scan_of_read? rfl
  have hclose : Token.scan (')' :: tail) = (Token.scan tail).map (.closeParen :: ·) :=
    Token.scan_of_read? rfl
  rw [htext, hopen, h _ (.closeParen tail), hclose]
  cases Token.scan tail with
  | error e => rfl
  | ok more => simp [Except.map]

/-- Two texts with a spelled operator between them. -/
theorem Written.joined {operator : Token} {between : String}
    (hoperator : operator ∈ [Token.and, .or])
    (hbetween : between.toList = ' ' :: (operator.text.toList ++ [' ']))
    (h : Written text tokens) (h' : Written text' tokens') :
    Written (text ++ between ++ text') (tokens ++ operator :: tokens') := by
  intro tail hends
  have htext : (text ++ between ++ text').toList ++ tail =
      text.toList ++ ' ' :: (operator.text.toList ++ ' ' :: (text'.toList ++ tail)) := by
    simp [hbetween]
  have hclock : Reader.clock (operator.text.toList ++ ' ' :: (text'.toList ++ tail)) = none := by
    simp only [List.mem_cons, List.not_mem_nil, or_false] at hoperator
    rcases hoperator with rfl | rfl <;> rfl
  have hspelled : operator ∈ [Token.and, .or, .not] := by
    simp only [List.mem_cons, List.not_mem_nil, or_false] at hoperator ⊢
    rcases hoperator with rfl | rfl <;> simp
  rw [htext, h _ (.space hclock), Token.scan_cons_blank rfl, Token.scan_operator_space hspelled,
    h' tail hends]
  cases Token.scan tail with
  | error e => rfl
  | ok more => simp [Except.map]

end written

/-! ### The words that stand in the open -/

/-- The words of the text. -/
def FreeText.bareWords : FreeText → List String
  | .words ws => ws
  | .quoted _ _ => []
  | .regex _ => []

mutual

/-- The field names and the words of free texts in the operand. -/
def Operand.bareWords : Operand → List String
  | .field path _ => [path.text]
  | .text text => text.bareWords
  | .not operand => operand.bareWords
  | .group branches => Query.bareWords branches

/-- The field names and the words of free texts in the branch. -/
def Branch.bareWords : Branch → List String
  | [] => []
  | operand :: operands => operand.bareWords ++ Branch.bareWords operands

/-- The field names and the words of free texts in the query. -/
def Query.bareWords : Query → List String
  | [] => []
  | branch :: branches => Branch.bareWords branch ++ Query.bareWords branches

end

/-- The tokens can be read off a text, and no word in the open begins with a digit. -/
def IsLegible (tokens : List Token) (words : List String) : Prop :=
  (∀ token ∈ tokens, token.IsLexical) ∧ ∀ word ∈ words, beginsWithDigit word.toList = false

theorem IsLegible.left {a b : List Token} {ws vs : List String}
    (h : IsLegible (a ++ b) (ws ++ vs)) : IsLegible a ws :=
  ⟨fun token ht => h.1 token (List.mem_append_left _ ht),
    fun word hw => h.2 word (List.mem_append_left _ hw)⟩

theorem IsLegible.right {a b : List Token} {ws vs : List String} {operator : Token}
    (h : IsLegible (a ++ operator :: b) (ws ++ vs)) : IsLegible b vs :=
  ⟨fun token ht => h.1 token (List.mem_append_right _ (List.mem_cons_of_mem _ ht)),
    fun word hw => h.2 word (List.mem_append_right _ hw)⟩

theorem ofFreeWord_eq_word {word : String} (h : (Token.ofFreeWord word).IsLexical)
    (hdigit : beginsWithDigit word.toList = false) : Token.ofFreeWord word = .word word := by
  unfold Token.ofFreeWord at h ⊢
  split_ifs at h ⊢ with hcolon hdash
  · obtain ⟨cs, rest, hread⟩ := h.literal
    rw [beginsWithDigit_of_dateTime hread] at hdigit
    cases hdigit
  · obtain ⟨cs, rest, hread⟩ := h.literal
    rw [beginsWithDigit_of_timeOfDay hread] at hdigit
    cases hdigit
  · rfl

theorem Value.written {value : Value} (hvalue : value ≠ .words [])
    (h : ∀ token ∈ value.tokens, token.IsLexical) : Written value.text value.tokens := by
  cases value with
  | words words =>
      apply written_words
      · rintro rfl
        exact hvalue rfl
      · exact fun word hw => h _ (List.mem_map_of_mem hw)
  | quoted quote text =>
      have hwritten := written_token (h (.quoted quote text) (by simp [Value.tokens]))
      rw [Token.text] at hwritten
      exact hwritten
  | literal form text =>
      exact written_token (h (.literal form text) (by simp [Value.tokens]))

theorem FreeText.written {text : FreeText} (htext : IsProperText text)
    (h : IsLegible text.tokens text.bareWords) : Written text.text text.tokens := by
  cases text with
  | words words =>
      have hword : ∀ word ∈ words, Token.ofFreeWord word = .word word := fun word hw =>
        ofFreeWord_eq_word (h.1 _ (List.mem_map_of_mem hw)) (h.2 word hw)
      have htokens : words.map Token.ofFreeWord = words.map .word := List.map_congr_left hword
      rw [FreeText.tokens, htokens]
      apply written_words
      · rintro rfl
        exact htext rfl
      · intro word hw
        rw [← hword word hw]
        exact h.1 _ (List.mem_map_of_mem hw)
  | quoted quote text =>
      have hwritten := written_token (h.1 (.quoted quote text) (by simp [FreeText.tokens]))
      rw [Token.text] at hwritten
      exact hwritten
  | regex text =>
      exact written_token (h.1 (.literal .regex text) (by simp [FreeText.tokens]))

/-- The operands with `AND` between them. -/
theorem Branch.written {branch : Branch} (hne : branch ≠ [])
    (hlegible : IsLegible branch.tokens branch.bareWords)
    (h : ∀ operand ∈ branch, IsLegible operand.tokens operand.bareWords →
      Written operand.toText operand.tokens) : Written branch.text branch.tokens := by
  have hand : (" AND ").toList = ' ' :: (Token.and.text.toList ++ [' ']) := by simp [Token.text]
  rw [Branch.text, Branch.operandTexts_eq_map]
  induction branch with
  | nil => exact absurd rfl hne
  | cons operand operands ih =>
      cases operands with
      | nil =>
          rw [Branch.bareWords, Branch.bareWords, List.append_nil] at hlegible
          rw [List.map_singleton, String.intercalate_singleton]
          exact h operand (by simp) hlegible
      | cons second operands =>
          have hfirst := h operand (by simp) hlegible.left
          have hmore := ih (by simp) hlegible.right fun o ho => h o (List.mem_cons_of_mem _ ho)
          rw [List.map_cons, String.intercalate_cons_of_ne_nil (by simp)]
          exact hfirst.joined (by simp) hand hmore

/-- The branches with `OR` between them. -/
theorem Query.written {query : Query} (hne : query ≠ [])
    (hlegible : IsLegible query.tokens query.bareWords)
    (h : ∀ branch ∈ query, IsLegible (Branch.tokens branch) (Branch.bareWords branch) →
      Written (Branch.text branch) (Branch.tokens branch)) : Written query.text query.tokens := by
  have hor : (" OR ").toList = ' ' :: (Token.or.text.toList ++ [' ']) := by simp [Token.text]
  rw [Query.text, Query.branchTexts_eq_map]
  induction query with
  | nil => exact absurd rfl hne
  | cons branch branches ih =>
      cases branches with
      | nil =>
          rw [Query.bareWords, Query.bareWords, List.append_nil] at hlegible
          rw [List.map_singleton, String.intercalate_singleton]
          exact h branch (by simp) hlegible
      | cons second branches =>
          have hfirst := h branch (by simp) hlegible.left
          have hmore := ih (by simp) hlegible.right fun b hb => h b (List.mem_cons_of_mem _ hb)
          rw [List.map_cons, String.intercalate_cons_of_ne_nil (by simp)]
          exact hfirst.joined (by simp) hor hmore

/-- The text of an operand is cut into its tokens. -/
theorem Operand.Proper.written {operand : Operand} (h : operand.Proper IsProperField IsProperText)
    (hlegible : IsLegible operand.tokens operand.bareWords) :
    Written operand.toText operand.tokens := by
  induction h with
  | @field path value h =>
      obtain ⟨hlexical, hdigit⟩ := hlegible
      have hname : (Token.word path.text).IsLexical := hlexical _ (by simp [Operand.tokens])
      have hvalue : Written value.text value.tokens :=
        Value.written h.2.2 fun token ht => hlexical token (by simp [Operand.tokens, ht])
      exact hvalue.field hname (hdigit _ (by simp [Operand.bareWords]))
  | text h => exact FreeText.written h hlegible
  | not _ ih => exact (ih ⟨fun token ht => hlegible.1 token (by simp [Operand.tokens, ht]), hlegible.2⟩).not
  | @group branches some_branch some_operand _ ih =>
      have hinner : IsLegible (Query.tokens branches) (Query.bareWords branches) :=
        ⟨fun token ht => hlegible.1 token (by simp [Operand.tokens, ht]), hlegible.2⟩
      have hquery : Written (Query.text branches) (Query.tokens branches) :=
        Query.written some_branch hinner fun branch hb hbranch =>
          Branch.written (some_operand branch hb) hbranch (ih branch hb)
      exact hquery.parenthesized

/-- The text of a query is cut into its tokens. -/
theorem Query.Proper.written {query : Query} (h : query.Proper IsProperField IsProperText)
    (hlegible : IsLegible query.tokens query.bareWords) : Written query.text query.tokens :=
  Query.written h.1 hlegible fun branch hb hbranch =>
    Branch.written (h.2 branch hb).1 hbranch fun operand ho => ((h.2 branch hb).2 operand ho).written

/-! ### Parsing a written query -/

theorem Thinned.forall_mem {p : Token → Prop} (hand : p .and) {tokens full : List Token}
    (h : Thinned tokens full) (hp : ∀ token ∈ tokens, p token) : ∀ token ∈ full, p token := by
  induction h with
  | nil => exact hp
  | keep token _ ih =>
      obtain ⟨hfirst, hmore⟩ := List.forall_mem_cons.mp hp
      exact List.forall_mem_cons.mpr ⟨hfirst, ih hmore⟩
  | drop _ ih => exact List.forall_mem_cons.mpr ⟨hand, ih hp⟩

/-- **A parsed query is written as a text that parses to it again**, whether operands may stand next
to each other or not, if no field name and no word of a free text in it begins with a digit. -/
theorem parse_text {g : Grammar} {text : String} {query : Query}
    (hparse : Query.parse g text = .ok query)
    (hdigit : ∀ word ∈ query.bareWords, beginsWithDigit word.toList = false) (implicit : Bool) :
    Query.parse { g with implicitConjunction := implicit } query.text = .ok query := by
  obtain ⟨tokens, htokens, hderives⟩ := parse_eq_ok_iff.mp hparse
  have hlexical := tokenize_isLexical htokens
  have hfull : ∀ token ∈ query.tokens, token.IsLexical := by
    obtain ⟨taken, htaken, hthinned, -⟩ := hderives.spells (tokenize_isSpelled htokens)
    rw [List.append_nil] at htaken
    rw [htaken] at hlexical
    have hand : Token.and.IsLexical := ⟨Token.and.text.toList, [], by cbv⟩
    exact hthinned.forall_mem hand hlexical
  have hwritten : Written query.text query.tokens := hderives.proper.written ⟨hfull, hdigit⟩
  have hdepth : ({ g with implicitConjunction := implicit } : Grammar).maxDepth = g.maxDepth := rfl
  have hends : (Part.query query).EndsAt [] := ⟨rfl, by simp, by simp⟩
  have hagain := Derives.again hdepth hderives hends
  rw [List.append_nil] at hagain
  exact parse_eq_ok_iff.mpr ⟨query.tokens, hwritten.tokenize_eq, hagain⟩

/-- A date as the value of a field, and operands next to each other. -/
theorem parse_text_implicit :
    ∃ query : Query,
      query = [[.field ⟨["a", "b"]⟩ (.words ["2024-01-15", "10"]),
        .not (.group [[.text (.quoted .double "x y")], [.field ⟨["c"]⟩ (.literal .time "10:30")]]),
        .text (.words ["d", "e"])]] ∧
      Query.parse {} "a.b:2024-01-15 10 NOT (\"x y\" OR c:10:30)d  e" = .ok query ∧
      query.text = "a.b:2024-01-15 10 AND NOT (\"x y\" OR c:10:30) AND d e" ∧
      Query.parse { implicitConjunction := false } query.text = .ok query := by
  refine ⟨_, rfl, ?_⟩
  have hparse : Query.parse {} "a.b:2024-01-15 10 NOT (\"x y\" OR c:10:30)d  e" =
      .ok [[.field ⟨["a", "b"]⟩ (.words ["2024-01-15", "10"]),
        .not (.group [[.text (.quoted .double "x y")], [.field ⟨["c"]⟩ (.literal .time "10:30")]]),
        .text (.words ["d", "e"])]] := by
    cbv
  exact ⟨hparse, by cbv, parse_text hparse (by cbv; decide) false⟩

end QueryFilter
