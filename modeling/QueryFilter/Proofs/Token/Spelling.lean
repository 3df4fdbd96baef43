import QueryFilter.Query.Parser

/-! # Words, dates and times

A word of a free text can come from three kinds of tokens, and the word alone tells which: words
have no colon in them, dates have a colon and a dash, times of day have a colon and no dash.
`Token.ofFreeWord` is that rule, and by `tokenize_isSpelled` no token of a text breaks it. -/

namespace QueryFilter

/-! ### Characters that a reader takes -/

namespace Reader

/-- Every character that the reader takes is in the class. -/
def Only (p : Char → Bool) (r : Reader) : Prop :=
  ∀ cs a rest, r cs = some (a, rest) → ∀ c ∈ a, p c = true

/-- The character is among those that the reader takes. -/
def Takes (c : Char) (r : Reader) : Prop := ∀ cs a rest, r cs = some (a, rest) → c ∈ a

section only
variable {p : Char → Bool}

theorem only_one {q : Char → Bool} (h : ∀ c, q c = true → p c = true) : Only p (one q) := by
  intro cs a rest hr
  cases cs with
  | nil => cases hr
  | cons c cs =>
      simp only [one] at hr
      split at hr
      · next hc =>
        cases hr
        simpa using h c hc
      · cases hr

theorem only_run {q : Char → Bool} (h : ∀ c, q c = true → p c = true) : Only p (run q) := by
  intro cs a rest hr c hc
  cases hr
  exact h c (List.all_eq_true.mp List.all_takeWhile c hc)

theorem only_seq {r s : Reader} (hr : Only p r) (hs : Only p s) : Only p (seq r s) := by
  intro cs a rest h c hc
  obtain ⟨b, d, mid, h1, h2, rfl⟩ := seq_eq_some.mp h
  rcases List.mem_append.mp hc with hc | hc
  · exact hr _ _ _ h1 c hc
  · exact hs _ _ _ h2 c hc

theorem only_chain {rs : List Reader} (h : ∀ r ∈ rs, Only p r) : Only p (chain rs) := by
  induction rs with
  | nil =>
      intro cs a rest hr
      cases hr
      simp
  | cons r rs ih => exact only_seq (h r (by simp)) (ih fun s hs => h s (by simp [hs]))

theorem only_choice {rs : List Reader} (h : ∀ r ∈ rs, Only p r) : Only p (choice rs) := by
  intro cs a rest hc
  obtain ⟨r, hr, hc⟩ := choice_eq_some hc
  exact h r hr _ _ _ hc

theorem only_optional {r : Reader} (hr : Only p r) : Only p (optional r) := by
  intro cs a rest h
  simp only [optional, Option.or_eq_some_iff, Option.some.injEq, Prod.mk.injEq] at h
  rcases h with h | ⟨-, rfl, rfl⟩
  · exact hr _ _ _ h
  · simp

theorem only_char {c : Char} (h : p c = true) : Only p (char c) := by
  apply only_one
  intro d hd
  rw [beq_iff_eq] at hd
  rw [hd, h]

theorem only_chars {word : List Char} (h : ∀ c ∈ word, p c = true) : Only p (chars word) := by
  apply only_chain
  simp only [List.mem_map]
  rintro r ⟨c, hc, rfl⟩
  exact only_char (h c hc)

theorem only_digits (h : ∀ c, c.isDigit = true → p c = true) (n : Nat) : Only p (digits n) := by
  apply only_chain
  intro r hr
  rw [List.eq_of_mem_replicate hr]
  exact only_one h

end only

theorem takes_char (c : Char) : Takes c (char c) := by
  intro cs a rest h
  cases cs with
  | nil => cases h
  | cons d cs =>
      simp only [char, one, beq_iff_eq] at h
      split at h
      · next hd =>
        cases h
        simp [hd]
      · cases h

theorem takes_chain {c : Char} {rs : List Reader} {r : Reader} (hm : r ∈ rs) (hr : Takes c r) :
    Takes c (chain rs) := by
  induction rs with
  | nil => cases hm
  | cons s rs ih =>
      intro cs a rest h
      obtain ⟨b, d, mid, h1, h2, rfl⟩ := seq_eq_some.mp h
      rcases List.mem_cons.mp hm with rfl | hm
      · exact List.mem_append_left _ (hr _ _ _ h1)
      · exact List.mem_append_right _ (ih hm _ _ _ h2)

theorem takes_colon_dateTime : Takes ':' dateTime :=
  takes_chain (r := clock) (by simp) (takes_chain (r := char ':') (by simp) (takes_char _))

theorem takes_dash_dateTime : Takes '-' dateTime :=
  takes_chain (r := calendarDate) (by simp) (takes_chain (r := char '-') (by simp) (takes_char _))

theorem takes_colon_timeOfDay : Takes ':' timeOfDay :=
  takes_chain (r := char ':') (by simp) (takes_char _)

theorem only_comparison : Only (· != '-') comparison := by
  apply only_optional
  apply only_choice
  simp only [List.mem_cons, List.not_mem_nil, or_false]
  rintro r (rfl | rfl | rfl | rfl)
  · exact only_chars (by simp)
  · exact only_chars (by simp)
  · exact only_char (by decide)
  · exact only_char (by decide)

theorem ne_dash_of_isDigit (c : Char) (hc : c.isDigit = true) : (c != '-') = true := by
  rw [bne_iff_ne]
  rintro rfl
  cases hc

theorem only_timeOfDay : Only (· != '-') timeOfDay := by
  apply only_chain
  simp only [List.mem_cons, List.not_mem_nil, or_false]
  rintro r (rfl | rfl | rfl | rfl | rfl | rfl)
  · exact only_comparison
  · exact only_one ne_dash_of_isDigit
  · exact only_optional (only_one ne_dash_of_isDigit)
  · exact only_char (by decide)
  · exact only_digits ne_dash_of_isDigit _
  · apply only_optional
    apply only_chain
    simp only [List.mem_cons, List.not_mem_nil, or_false]
    rintro r (rfl | rfl)
    · exact only_char (by decide)
    · exact only_digits ne_dash_of_isDigit _

theorem only_wordRun : Only isWordChar wordRun := by
  apply only_seq
  · apply only_one
    intro c hc
    simp only [isWordStart, Bool.and_eq_true] at hc
    exact hc.1
  · exact only_run fun _ h => h

end Reader

/-! ### Which token a word comes from -/

namespace Token

/-- The token that is written as this word in a free text. -/
def ofFreeWord (word : String) : Token :=
  if word.toList.contains ':' then
    if word.toList.contains '-' then .literal .dateTime word else .literal .time word
  else .word word

/-- If the token can be a word of a free text, it is the one that the word is written for. -/
def IsSpelled (token : Token) : Prop :=
  ∀ word, token.freeWord? = some word → token = ofFreeWord word

theorem isSpelled_word {text : String} (h : ':' ∉ text.toList) : IsSpelled (.word text) := by
  intro word hw
  cases hw
  simp [ofFreeWord, h]

theorem isSpelled_dateTime {text : String} (hcolon : ':' ∈ text.toList)
    (hdash : '-' ∈ text.toList) : IsSpelled (.literal .dateTime text) := by
  intro word hw
  cases hw
  simp [ofFreeWord, hcolon, hdash]

theorem isSpelled_time {text : String} (hcolon : ':' ∈ text.toList)
    (hdash : '-' ∉ text.toList) : IsSpelled (.literal .time text) := by
  intro word hw
  cases hw
  simp [ofFreeWord, hcolon, hdash]

theorem isSpelled_of_freeWord?_eq_none {token : Token} (h : token.freeWord? = none) :
    token.IsSpelled := by
  intro word hw
  rw [h] at hw
  cases hw

/-- A literal that can be a word is a date, which has a dash in it, or a time of day without one. -/
theorem isSpelled_literal {form : LiteralForm} {cs taken rest : List Char}
    (h : form.reader cs = some (taken, rest)) :
    IsSpelled (.literal form (String.ofList taken)) := by
  cases form with
  | bracketed => exact isSpelled_of_freeWord?_eq_none rfl
  | dateTime =>
      apply isSpelled_dateTime
      · simpa using Reader.takes_colon_dateTime _ _ _ h
      · simpa using Reader.takes_dash_dateTime _ _ _ h
  | time =>
      apply isSpelled_time
      · simpa using Reader.takes_colon_timeOfDay _ _ _ h
      · intro hdash
        rw [String.toList_ofList] at hdash
        cases Reader.only_timeOfDay _ _ _ h _ hdash
  | regex => exact isSpelled_of_freeWord?_eq_none rfl

section read
variable {cs rest : List Char} {token : Token}

theorem read?_isSpelled (h : read? cs = some (token, rest)) : token.IsSpelled := by
  rcases read?_cases h with
    ⟨hm, -⟩ | ⟨_, _, -, rfl⟩ | ⟨form, taken, hform, rfl⟩ | ⟨taken, hrun, rfl, -⟩
  · have hnone : ∀ token ∈ [openParen, closeParen, colon, and, or, not], token.freeWord? = none := by
      decide
    exact isSpelled_of_freeWord?_eq_none (hnone token hm)
  · exact isSpelled_of_freeWord?_eq_none rfl
  · exact isSpelled_literal hform
  · apply isSpelled_word
    intro hcolon
    rw [String.toList_ofList] at hcolon
    have hchar := Reader.only_wordRun _ _ _ hrun _ hcolon
    simp [isWordChar] at hchar

/-- The token is the first one of some text. -/
def IsLexical (token : Token) : Prop := ∃ cs rest, read? (trimStart cs) = some (token, rest)

theorem scan_isLexical {tokens : List Token} (h : scan cs = .ok tokens) :
    ∀ token ∈ tokens, token.IsLexical := by
  fun_induction scan cs generalizing tokens with
  | case1 =>
      cases h
      simp
  | case2 => cases h
  | case3 => cases h
  | case4 cs c tail hblank token rest hread hlen more hmore ih =>
      cases h
      intro other hother
      rcases List.mem_cons.mp hother with rfl | hother
      · exact ⟨cs, rest, by rw [hblank, hread]⟩
      · exact ih hmore other hother

theorem IsLexical.isSpelled (h : token.IsLexical) : token.IsSpelled := by
  obtain ⟨cs, rest, hread⟩ := h
  exact read?_isSpelled hread

end read

end Token

/-- Every token of a text can be read off a text. -/
theorem tokenize_isLexical {text : String} {tokens : List Token} (h : tokenize text = .ok tokens) :
    ∀ token ∈ tokens, token.IsLexical :=
  Token.scan_isLexical h

/-- Every word of a free text comes from the token that it is written for. -/
theorem tokenize_isSpelled {text : String} {tokens : List Token} (h : tokenize text = .ok tokens) :
    ∀ token ∈ tokens, token.IsSpelled :=
  fun token htoken => (tokenize_isLexical h token htoken).isSpelled

end QueryFilter
