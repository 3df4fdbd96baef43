import QueryFilter.SyntaxError
import QueryFilter.Text.Blank
import QueryFilter.Token
import QueryFilter.Token.Reader

/-! # From text to tokens

`tokenize` cuts a query text into tokens.  At each place the shapes are tried in a fixed order:
parentheses, phrases, ranges, regular expressions, dates, times of day, the colon, and last of all
a word.  Where no shape fits, the character found there says what is wrong with the text.

`read?_cases` says where a token can come from, and `read?_eq_some` is the law of the scanner: the
text of the token that was read is exactly what was taken off the text, and it is not empty. -/

namespace QueryFilter

/-! ### Shapes of literals -/

namespace Reader

/-- An optional comparison operator. -/
def comparison : Reader :=
  optional (choice [chars ['>', '='], chars ['<', '='], char '>', char '<'])

/-- A range: everything from `[` up to the first `]`. -/
def bracketed : Reader := chain [char '[', run (· != ']'), char ']']

/-- The longest run of characters inside a regular expression: a backslash takes the next
character with it, a slash ends the run. -/
def regexBody : List Char → List Char × List Char
  | [] => ([], [])
  | '\\' :: c :: cs =>
    let (body, rest) := regexBody cs
    ('\\' :: c :: body, rest)
  | c :: cs =>
    if c == '/' || c == '\\' then ([], c :: cs)
    else
      let (body, rest) := regexBody cs
      (c :: body, rest)

/-- The inside of a regular expression, which is not empty. -/
def regexInside : Reader := fun cs =>
  match regexBody cs with
  | ([], _) => none
  | (body, rest) => some (body, rest)

/-- A regular expression between slashes. -/
def regexLiteral : Reader := chain [char '/', regexInside, char '/']

/-- `YYYY-MM-DD` -/
def calendarDate : Reader := chain [digits 4, char '-', digits 2, char '-', digits 2]

/-- `:ss`, with an optional fraction. -/
def seconds : Reader :=
  chain [char ':', digits 2, optional (chain [char '.', run1 Char.isDigit])]

/-- `hh:mm`, with optional seconds. -/
def clock : Reader := chain [digits 2, char ':', digits 2, optional seconds]

/-- `Z`, or a signed offset with or without a colon. -/
def zone : Reader :=
  choice [char 'Z',
    chain [one fun c => c == '+' || c == '-', digits 2, optional (char ':'), digits 2]]

/-- A date and a time of day, `T` or a space between them. -/
def dateTime : Reader :=
  chain [comparison, calendarDate, one fun c => c == 'T' || c == ' ', clock, optional zone]

/-- `h:mm` or `hh:mm`, with optional seconds. -/
def timeOfDay : Reader :=
  chain [comparison, digit, optional digit, char ':', digits 2,
    optional (chain [char ':', digits 2])]

end Reader

/-- The shape of a literal. -/
def LiteralForm.reader : LiteralForm → Reader
  | .bracketed => Reader.bracketed
  | .dateTime => Reader.dateTime
  | .time => Reader.timeOfDay
  | .regex => Reader.regexLiteral

/-- The text between two marks: the inside and the rest after the closing mark. -/
def phrase (mark : Char) : List Char → Option (List Char × List Char)
  | [] => none
  | c :: cs =>
    if c == mark then
      match cs.dropWhile (· != mark) with
      | [] => none
      | _ :: rest => some (cs.takeWhile (· != mark), rest)
    else none

/-- A character that can stand inside a word. -/
def isWordChar (c : Char) : Bool :=
  !(isBlank c || c == '(' || c == ')' || c == ':' || c == '"' || c == '[' || c == ']')

/-- A character that a word can start with. -/
def isWordStart (c : Char) : Bool := isWordChar c && !(c == '\'' || c == '/')

/-- A word. -/
def Reader.wordRun : Reader := Reader.seq (Reader.one isWordStart) (Reader.run isWordChar)

namespace Token

/-! ### Reading one token -/

/-- A token that is a single character. -/
def readSymbol (c : Char) (token : Token) (cs : List Char) : Option (Token × List Char) :=
  (Reader.char c cs).map fun (_, rest) => (token, rest)

/-- A phrase between two quotes. -/
def readQuoted (quote : Quote) (cs : List Char) : Option (Token × List Char) :=
  (phrase quote.mark cs).map fun (inside, rest) => (.quoted quote (String.ofList inside), rest)

/-- A literal of the given shape. -/
def readLiteral (form : LiteralForm) (cs : List Char) : Option (Token × List Char) :=
  (form.reader cs).map fun (text, rest) => (.literal form (String.ofList text), rest)

/-- A word, or the operator it spells. -/
def readWord (cs : List Char) : Option (Token × List Char) :=
  (Reader.wordRun cs).map fun (text, rest) => (ofWord (String.ofList text), rest)

/-- The shapes of tokens, in the order in which they are tried.  Delimited literals, dates and
times come before the colon and before words, whose characters they contain. -/
def readers : List (List Char → Option (Token × List Char)) :=
  [readSymbol '(' .openParen, readSymbol ')' .closeParen, readQuoted .double, readQuoted .single,
   readLiteral .bracketed, readLiteral .regex, readLiteral .dateTime, readLiteral .time,
   readSymbol ':' .colon, readWord]

/-- The token that a text starts with, and the rest of the text. -/
def read? (cs : List Char) : Option (Token × List Char) :=
  readers.findSome? fun reader => reader cs

/-- Why no token can be read off a text that starts with `c`. -/
def malformed (c : Char) (cs : List Char) : SyntaxError :=
  if c == '"' || c == '\'' then .unterminatedQuote (String.ofList (c :: cs))
  else if c == '[' then .unterminatedRange (String.ofList (c :: cs))
  else if c == '/' then .unterminatedRegex (String.ofList (c :: cs))
  else .unexpectedCharacter (String.singleton c)

/-! ### Nothing is lost -/

section exactness
open Reader

theorem exact_comparison : Exact comparison := by
  apply exact_optional
  apply exact_choice
  simp only [List.mem_cons, List.not_mem_nil, or_false]
  rintro r (rfl | rfl | rfl | rfl)
  · exact exact_chars _
  · exact exact_chars _
  · exact exact_char _
  · exact exact_char _

theorem exact_bracketed : Exact bracketed := by
  apply exact_chain
  simp only [List.mem_cons, List.not_mem_nil, or_false]
  rintro r (rfl | rfl | rfl)
  · exact exact_char _
  · exact exact_run _
  · exact exact_char _

theorem regexBody_append (cs : List Char) : (regexBody cs).1 ++ (regexBody cs).2 = cs := by
  fun_induction regexBody cs with
  | case1 => rfl
  | case2 c cs body rest h ih => simpa [h] using ih
  | case3 => rfl
  | case4 c cs _ _ body rest h ih => simpa [h] using ih

theorem exact_regexInside : Exact regexInside := by
  intro cs a rest h
  unfold regexInside at h
  have hb := regexBody_append cs
  split at h
  · simp at h
  · next body rest' hne heq =>
    simp only [Option.some.injEq, Prod.mk.injEq] at h
    rw [heq] at hb
    rw [← h.1, ← h.2, hb]

theorem exact_regexLiteral : Exact regexLiteral := by
  apply exact_chain
  simp only [List.mem_cons, List.not_mem_nil, or_false]
  rintro r (rfl | rfl | rfl)
  · exact exact_char _
  · exact exact_regexInside
  · exact exact_char _

theorem exact_calendarDate : Exact calendarDate := by
  apply exact_chain
  simp only [List.mem_cons, List.not_mem_nil, or_false]
  rintro r (rfl | rfl | rfl | rfl | rfl)
  · exact exact_digits _
  · exact exact_char _
  · exact exact_digits _
  · exact exact_char _
  · exact exact_digits _

theorem exact_seconds : Exact seconds := by
  apply exact_chain
  simp only [List.mem_cons, List.not_mem_nil, or_false]
  rintro r (rfl | rfl | rfl)
  · exact exact_char _
  · exact exact_digits _
  · apply exact_optional
    apply exact_chain
    simp only [List.mem_cons, List.not_mem_nil, or_false]
    rintro r (rfl | rfl)
    · exact exact_char _
    · exact exact_run1 _

theorem exact_clock : Exact clock := by
  apply exact_chain
  simp only [List.mem_cons, List.not_mem_nil, or_false]
  rintro r (rfl | rfl | rfl | rfl)
  · exact exact_digits _
  · exact exact_char _
  · exact exact_digits _
  · exact exact_optional exact_seconds

theorem exact_zone : Exact zone := by
  apply exact_choice
  simp only [List.mem_cons, List.not_mem_nil, or_false]
  rintro r (rfl | rfl)
  · exact exact_char _
  · apply exact_chain
    simp only [List.mem_cons, List.not_mem_nil, or_false]
    rintro r (rfl | rfl | rfl | rfl)
    · exact exact_one _
    · exact exact_digits _
    · exact exact_optional (exact_char _)
    · exact exact_digits _

theorem exact_dateTime : Exact dateTime := by
  apply exact_chain
  simp only [List.mem_cons, List.not_mem_nil, or_false]
  rintro r (rfl | rfl | rfl | rfl | rfl)
  · exact exact_comparison
  · exact exact_calendarDate
  · exact exact_one _
  · exact exact_clock
  · exact exact_optional exact_zone

theorem exact_timeOfDay : Exact timeOfDay := by
  apply exact_chain
  simp only [List.mem_cons, List.not_mem_nil, or_false]
  rintro r (rfl | rfl | rfl | rfl | rfl | rfl)
  · exact exact_comparison
  · exact exact_digit
  · exact exact_optional exact_digit
  · exact exact_char _
  · exact exact_digits _
  · apply exact_optional
    apply exact_chain
    simp only [List.mem_cons, List.not_mem_nil, or_false]
    rintro r (rfl | rfl)
    · exact exact_char _
    · exact exact_digits _

/-- A literal is taken off the text as it stands. -/
theorem exact_reader (form : LiteralForm) : Exact form.reader := by
  cases form
  · exact exact_bracketed
  · exact exact_dateTime
  · exact exact_timeOfDay
  · exact exact_regexLiteral

/-- No literal is empty. -/
theorem progress_reader (form : LiteralForm) : Progress form.reader := by
  cases form
  · exact progress_seq_left (progress_char _)
  · exact progress_chain (r := calendarDate) (by simp) (progress_seq_left (progress_digits 3))
  · exact progress_chain (r := digit) (by simp) progress_digit
  · exact progress_seq_left (progress_char _)

theorem exact_wordRun : Exact wordRun := exact_seq (exact_one _) (exact_run _)

theorem progress_wordRun : Progress wordRun := progress_seq_left (progress_one _)

/-- A phrase is its inside between two marks. -/
theorem phrase_eq_some {mark : Char} {cs inside rest : List Char}
    (h : phrase mark cs = some (inside, rest)) : cs = mark :: inside ++ mark :: rest := by
  cases cs with
  | nil => simp [phrase] at h
  | cons c cs =>
    simp only [phrase] at h
    split at h
    · next hc =>
      have hc : c = mark := by simpa using hc
      have hsplit := List.takeWhile_append_dropWhile (p := (· != mark)) (l := cs)
      split at h
      · simp at h
      · next d tail hd =>
        simp only [Option.some.injEq, Prod.mk.injEq] at h
        have hdm : d = mark := by
          have := List.head?_dropWhile_not (p := (· != mark)) (l := cs)
          rw [hd] at this
          simpa using this
        rw [hd, h.1, hdm, h.2] at hsplit
        rw [hc, ← hsplit]
        rfl
    · simp at h

end exactness

/-! ### Where a token comes from -/

section read
variable {cs rest : List Char} {token : Token}

theorem readSymbol_eq_some {c : Char} {symbol : Token}
    (h : readSymbol c symbol cs = some (token, rest)) : token = symbol ∧ cs = c :: rest := by
  simp only [readSymbol, Option.map_eq_some_iff, Prod.mk.injEq, Prod.exists] at h
  obtain ⟨a, rest', hchar, rfl, rfl⟩ := h
  exact ⟨rfl, (Reader.char_eq_some.mp hchar).2⟩

theorem readQuoted_eq_some {quote : Quote} (h : readQuoted quote cs = some (token, rest)) :
    ∃ inside, phrase quote.mark cs = some (inside, rest) ∧
      token = .quoted quote (String.ofList inside) := by
  simp only [readQuoted, Option.map_eq_some_iff, Prod.mk.injEq, Prod.exists] at h
  obtain ⟨inside, rest', hphrase, rfl, rfl⟩ := h
  exact ⟨inside, hphrase, rfl⟩

theorem readLiteral_eq_some {form : LiteralForm} (h : readLiteral form cs = some (token, rest)) :
    ∃ text, form.reader cs = some (text, rest) ∧ token = .literal form (String.ofList text) := by
  simp only [readLiteral, Option.map_eq_some_iff, Prod.mk.injEq, Prod.exists] at h
  obtain ⟨text, rest', hform, rfl, rfl⟩ := h
  exact ⟨text, hform, rfl⟩

theorem readWord_eq_some (h : readWord cs = some (token, rest)) :
    ∃ text, Reader.wordRun cs = some (text, rest) ∧ token = ofWord (String.ofList text) := by
  simp only [readWord, Option.map_eq_some_iff, Prod.mk.injEq, Prod.exists] at h
  obtain ⟨text, rest', hrun, rfl, rfl⟩ := h
  exact ⟨text, hrun, rfl⟩

/-- What reading a token can find: a token with a fixed text, a phrase, a literal or a word. -/
theorem read?_cases (h : read? cs = some (token, rest)) :
    (token ∈ [openParen, closeParen, colon, and, or, not] ∧ cs = token.text.toList ++ rest) ∨
    (∃ quote inside, phrase quote.mark cs = some (inside, rest) ∧
      token = .quoted quote (String.ofList inside)) ∨
    (∃ form text, form.reader cs = some (text, rest) ∧
      token = .literal form (String.ofList text)) ∨
    ∃ text, Reader.wordRun cs = some (text, rest) ∧ token = .word (String.ofList text) ∧
      ofWord (String.ofList text) = token := by
  have symbol {c : Char} {t : Token} (ht : t ∈ [openParen, closeParen, colon, and, or, not])
      (htext : t.text.toList = [c]) (hs : readSymbol c t cs = some (token, rest)) :
      token ∈ [openParen, closeParen, colon, and, or, not] ∧ cs = token.text.toList ++ rest := by
    obtain ⟨rfl, hcs⟩ := readSymbol_eq_some hs
    exact ⟨ht, by rw [htext, hcs]; rfl⟩
  obtain ⟨reader, hm, hr⟩ := List.exists_of_findSome?_eq_some h
  simp only [readers, List.mem_cons, List.not_mem_nil, or_false] at hm
  rcases hm with rfl | rfl | rfl | rfl | rfl | rfl | rfl | rfl | rfl | rfl
  · exact .inl (symbol (by simp) rfl hr)
  · exact .inl (symbol (by simp) rfl hr)
  · exact .inr (.inl ⟨_, readQuoted_eq_some hr⟩)
  · exact .inr (.inl ⟨_, readQuoted_eq_some hr⟩)
  · exact .inr (.inr (.inl ⟨_, readLiteral_eq_some hr⟩))
  · exact .inr (.inr (.inl ⟨_, readLiteral_eq_some hr⟩))
  · exact .inr (.inr (.inl ⟨_, readLiteral_eq_some hr⟩))
  · exact .inr (.inr (.inl ⟨_, readLiteral_eq_some hr⟩))
  · exact .inl (symbol (by simp) rfl hr)
  · -- an operator is read as a word first
    obtain ⟨text, hrun, rfl⟩ := readWord_eq_some hr
    rcases ofWord_cases (String.ofList text) with hop | hword
    · refine .inl ⟨List.mem_append_right [openParen, closeParen, colon] hop, ?_⟩
      rw [text_ofWord, String.toList_ofList, ← exact_wordRun _ _ _ hrun]
    · exact .inr (.inr (.inr ⟨text, hrun, hword, rfl⟩))

/-- The token read off a text is the beginning of the text, and it is not empty. -/
theorem read?_eq_some (h : read? cs = some (token, rest)) :
    cs = token.text.toList ++ rest ∧ token.text.toList ≠ [] := by
  rcases read?_cases h with
    ⟨hm, hcs⟩ | ⟨quote, inside, hphrase, rfl⟩ | ⟨form, taken, hform, rfl⟩ | ⟨taken, hrun, rfl, -⟩
  · have hne : ∀ token ∈ [openParen, closeParen, colon, and, or, not], token.text.toList ≠ [] := by
      decide
    exact ⟨hcs, hne token hm⟩
  · rw [phrase_eq_some hphrase]
    simp [text, Quote.around]
  · rw [text, String.toList_ofList]
    exact ⟨exact_reader form _ _ _ hform, progress_reader form _ _ _ hform⟩
  · rw [text, String.toList_ofList]
    exact ⟨exact_wordRun _ _ _ hrun, progress_wordRun _ _ _ hrun⟩

/-- Reading a token leaves a shorter text. -/
theorem length_rest_lt (h : read? cs = some (token, rest)) : rest.length < cs.length := by
  obtain ⟨h1, h2⟩ := read?_eq_some h
  have := List.length_pos_iff.mpr h2
  rw [h1, List.length_append]
  omega

end read

/-! ### Scanning a text -/

/-- The tokens of a text, or what is wrong at the first place where there is none. -/
def scan (cs : List Char) : Except SyntaxError (List Token) :=
  match hblank : trimStart cs with
  | [] => .ok []
  | c :: tail =>
    match hread : read? (c :: tail) with
    | none => .error (malformed c tail)
    | some (token, rest) =>
      have : rest.length < cs.length := by
        have h1 := length_rest_lt hread
        have h2 := length_trimStart_le cs
        rw [hblank] at h2
        omega
      match scan rest with
      | .error e => .error e
      | .ok tokens => .ok (token :: tokens)
termination_by cs.length

end Token

/-- Cuts a query text into tokens; blanks between tokens are dropped. -/
def tokenize (text : String) : Except SyntaxError (List Token) := Token.scan text.toList

end QueryFilter
