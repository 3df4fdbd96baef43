import Mathlib
import QueryFilter.Proofs.Token.Firm

/-! # Reading tokens again

A token that was read off one text is read again off its own text, whatever the neighbours that it
had in the first one, if only what follows it now cannot be taken for a part of it
(`Token.read?_again`).

* The reader of a literal takes again what it took, unless the next character could go on a date or
  a time (`LiteralForm.firm_reader`).
* A word has no colon in it.  So in front of a blank or a closing parenthesis it is not the beginning
  of a date or a time, unless a clock follows after the blank (`EndsToken`).
* A word in front of a colon is not the beginning of a date or a time unless it begins with a digit
  (`beginsWithDigit`). -/

namespace QueryFilter

/-! ### Texts that begin with a number -/

/-- The comparison operators, and the empty text. -/
def comparisonSigns : List (List Char) := [['>', '='], ['<', '='], ['>'], ['<'], []]

/-- The text begins with a decimal digit, after an optional comparison operator. -/
def beginsWithDigit (cs : List Char) : Bool :=
  comparisonSigns.any fun sign =>
    sign.isPrefixOf cs && (cs.drop sign.length).head?.any Char.isDigit

theorem beginsWithDigit_iff {cs : List Char} :
    beginsWithDigit cs = true ↔
      ∃ sign ∈ comparisonSigns, ∃ d rest, d.isDigit = true ∧ cs = sign ++ d :: rest := by
  simp only [beginsWithDigit, List.any_eq_true, Bool.and_eq_true, List.isPrefixOf_iff_prefix]
  constructor
  · rintro ⟨sign, hsign, ⟨rest, rfl⟩, hdigit⟩
    rw [List.drop_left] at hdigit
    cases rest with
    | nil => cases hdigit
    | cons d rest => exact ⟨sign, hsign, d, rest, hdigit, rfl⟩
  · rintro ⟨sign, hsign, d, rest, hdigit, rfl⟩
    refine ⟨sign, hsign, ⟨d :: rest, rfl⟩, ?_⟩
    rw [List.drop_left]
    exact hdigit

section digits
variable {cs a rest : List Char}

theorem beginsWithDigit_append (h : beginsWithDigit a = true) (rest : List Char) :
    beginsWithDigit (a ++ rest) = true := by
  obtain ⟨sign, hsign, d, tail, hdigit, rfl⟩ := beginsWithDigit_iff.mp h
  exact beginsWithDigit_iff.mpr ⟨sign, hsign, d, tail ++ rest, hdigit, by simp⟩

/-- In front of a character that is no part of a number, the text alone tells whether it begins with
a digit. -/
theorem beginsWithDigit_of_append_cons {x : Char} (hsign : Reader.comparisonChar x = false)
    (hx : x.isDigit = false) (h : beginsWithDigit (cs ++ x :: rest) = true) :
    beginsWithDigit cs = true := by
  obtain ⟨sign, hs, d, tail, hdigit, heq⟩ := beginsWithDigit_iff.mp h
  have hmem : x ∉ sign ++ [d] := by
    have hd : d ≠ x := by
      rintro rfl
      rw [hdigit] at hx
      cases hx
    have hsign : x ∉ sign := by
      simp only [Reader.comparisonChar, Bool.or_eq_false_iff, beq_eq_false_iff_ne] at hsign
      simp only [comparisonSigns, List.mem_cons, List.not_mem_nil, or_false] at hs
      rcases hs with rfl | rfl | rfl | rfl | rfl <;> simp [hsign]
    simp [hsign, hd.symm]
  have hsplit : cs ++ x :: rest = (sign ++ [d]) ++ tail := by rw [heq]; simp
  rcases List.append_eq_append_iff.mp hsplit with ⟨as, hbefore, has⟩ | ⟨bs, hcs, -⟩
  · cases as with
    | nil =>
        rw [List.append_nil] at hbefore
        exact beginsWithDigit_iff.mpr ⟨sign, hs, d, [], hdigit, hbefore.symm⟩
    | cons c as =>
        obtain rfl : x = c := (List.cons.inj has).1
        rw [hbefore] at hmem
        exact absurd (by simp) hmem
  · exact beginsWithDigit_iff.mpr ⟨sign, hs, d, bs, hdigit, by rw [hcs]; simp⟩

theorem beginsWithDigit_of_comparison {s : Reader}
    (hdigit : Reader.Avoids (fun c => !c.isDigit) s) (hprogress : Reader.Progress s)
    (h : Reader.seq Reader.comparison s cs = some (a, rest)) : beginsWithDigit a = true := by
  obtain ⟨sign, b, mid, h1, h2, rfl⟩ := Reader.seq_eq_some.mp h
  obtain ⟨d, ds, rfl⟩ := List.exists_cons_of_ne_nil (hprogress _ _ _ h2)
  have hd := hdigit _ _ _ h2 d rfl
  exact beginsWithDigit_iff.mpr
    ⟨sign, (Reader.comparison_eq_some h1).2, d, ds, by simpa using hd, rfl⟩

theorem beginsWithDigit_of_dateTime (h : Reader.dateTime cs = some (a, rest)) :
    beginsWithDigit a = true := by
  have hdigits : Reader.Avoids (fun c => !c.isDigit) (Reader.digits 4) :=
    Reader.avoids_digits (fun c hc => by rw [hc]; rfl) 3
  have hprogress : Reader.Progress Reader.calendarDate :=
    Reader.progress_seq_left (Reader.progress_digits 3)
  apply beginsWithDigit_of_comparison _ _ h
  · exact (hdigits.seq (Reader.progress_digits 3) _).seq hprogress _
  · exact Reader.progress_seq_left hprogress

theorem beginsWithDigit_of_timeOfDay (h : Reader.timeOfDay cs = some (a, rest)) :
    beginsWithDigit a = true := by
  have hdigit : Reader.Avoids (fun c => !c.isDigit) Reader.digit :=
    Reader.avoids_one fun c hc => by rw [hc]; rfl
  apply beginsWithDigit_of_comparison _ _ h
  · exact hdigit.seq Reader.progress_digit _
  · exact Reader.progress_seq_left Reader.progress_digit

/-- A text that does not begin with a digit is no date and no time. -/
theorem dateTime_eq_none (h : beginsWithDigit cs = false) : Reader.dateTime cs = none := by
  cases hread : Reader.dateTime cs with
  | none => rfl
  | some p =>
      obtain ⟨a, rest⟩ := p
      have hdigit := beginsWithDigit_append (beginsWithDigit_of_dateTime hread) rest
      rw [← Token.exact_dateTime _ _ _ hread, h] at hdigit
      cases hdigit

theorem timeOfDay_eq_none (h : beginsWithDigit cs = false) : Reader.timeOfDay cs = none := by
  cases hread : Reader.timeOfDay cs with
  | none => rfl
  | some p =>
      obtain ⟨a, rest⟩ := p
      have hdigit := beginsWithDigit_append (beginsWithDigit_of_timeOfDay hread) rest
      rw [← Token.exact_timeOfDay _ _ _ hread, h] at hdigit
      cases hdigit

end digits

/-! ### Words are no dates and no times -/

/-- What can follow a word or a literal for it to end there: nothing, a closing parenthesis, or a
space without a clock after it. -/
inductive EndsToken : List Char → Prop
  | nil : EndsToken []
  | closeParen (tail : List Char) : EndsToken (')' :: tail)
  | space {tail : List Char} (h : Reader.clock tail = none) : EndsToken (' ' :: tail)

section words
variable {word tail : List Char}

theorem EndsToken.head (h : EndsToken tail) :
    ∀ c ∈ tail.head?, Reader.goesOn c = false ∧ isWordChar c = false := by
  cases h with
  | nil => simp
  | closeParen tail =>
      intro c hc
      cases hc
      exact ⟨by decide, by decide⟩
  | space _ =>
      intro c hc
      cases hc
      exact ⟨by decide, by decide⟩

theorem eq_none_of_takes {r : Reader} (htakes : Reader.Takes ':' r) (hexact : Reader.Exact r)
    (h : ':' ∉ word) : r word = none := by
  cases hread : r word with
  | none => rfl
  | some p =>
      obtain ⟨a, rest⟩ := p
      have hcolon := htakes _ _ _ hread
      rw [hexact _ _ _ hread] at h
      exact absurd (List.mem_append_left rest hcolon) h

theorem takes_colon_clock : Reader.Takes ':' Reader.clock :=
  Reader.takes_chain (r := Reader.char ':') (by simp) (Reader.takes_char _)

/-- No clock starts with a word. -/
theorem clock_word (h : ':' ∉ word) (hends : EndsToken tail) :
    Reader.clock (word ++ tail) = none := by
  have hword := eq_none_of_takes takes_colon_clock Token.exact_clock h
  cases hends with
  | nil => rw [List.append_nil, hword]
  | closeParen tail => rw [Reader.stops_clock rfl, hword]; rfl
  | space _ => rw [Reader.stops_clock rfl, hword]; rfl

/-- No time of day starts with a word. -/
theorem timeOfDay_word (h : ':' ∉ word) (hends : EndsToken tail) :
    Reader.timeOfDay (word ++ tail) = none := by
  have hword := eq_none_of_takes Reader.takes_colon_timeOfDay Token.exact_timeOfDay h
  cases hends with
  | nil => rw [List.append_nil, hword]
  | closeParen tail => rw [Reader.stops_timeOfDay rfl, hword]; rfl
  | space _ => rw [Reader.stops_timeOfDay rfl, hword]; rfl

/-- What a reader takes in front of a space is taken off the text before the space. -/
theorem exists_of_stops_space {r : Reader} (hstops : Reader.Stops ' ' r) {cs tail a mid : List Char}
    (h : r (cs ++ ' ' :: tail) = some (a, mid)) :
    ∃ rest, r cs = some (a, rest) ∧ mid = rest ++ ' ' :: tail := by
  rw [hstops] at h
  simp only [Option.map_eq_some_iff, Prod.mk.injEq, Prod.exists] at h
  obtain ⟨a', rest, hr, rfl, rfl⟩ := h
  exact ⟨rest, hr, rfl⟩

/-- In front of a space a word may be a calendar date, but then no clock follows. -/
theorem dateTime_word_space (h : ':' ∉ word) (hclock : Reader.clock tail = none) :
    Reader.dateTime (word ++ ' ' :: tail) = none := by
  cases hread : Reader.dateTime (word ++ ' ' :: tail) with
  | none => rfl
  | some p =>
      obtain ⟨a, rest⟩ := p
      obtain ⟨sign, b, mid, h1, h2, -⟩ := Reader.seq_eq_some.mp hread
      obtain ⟨date, c, mid', h3, h4, -⟩ := Reader.seq_eq_some.mp h2
      obtain ⟨sep, d, mid'', h5, h6, -⟩ := Reader.seq_eq_some.mp h4
      obtain ⟨time, e, _, h7, -⟩ := Reader.seq_eq_some.mp h6
      obtain ⟨more, hsign, rfl⟩ := exists_of_stops_space (Reader.stops_comparison rfl) h1
      obtain ⟨more', hdate, rfl⟩ := exists_of_stops_space (Reader.stops_calendarDate rfl) h3
      have hmore : ':' ∉ more' := by
        rw [Token.exact_comparison _ _ _ hsign, Token.exact_calendarDate _ _ _ hdate] at h
        simp only [List.mem_append, not_or] at h
        exact h.2.2
      have hsep := Reader.exact_one _ _ _ _ h5
      have hone := Reader.length_one h5
      obtain ⟨x, rfl⟩ := List.length_eq_one_iff.mp hone
      -- the separator is the space itself, or it is the `T` of the word
      cases more' with
      | nil =>
          obtain ⟨-, rfl⟩ := List.cons.inj hsep
          rw [hclock] at h7
          cases h7
      | cons y more' =>
          obtain ⟨-, hrest⟩ := List.cons.inj hsep
          have hnone := eq_none_of_takes takes_colon_clock Token.exact_clock
            (fun hm => hmore (List.mem_cons_of_mem y hm))
          rw [← show more' ++ ' ' :: tail = mid'' from hrest, Reader.stops_clock rfl, hnone] at h7
          cases h7

/-- No date and time starts with a word. -/
theorem dateTime_word (h : ':' ∉ word) (hends : EndsToken tail) :
    Reader.dateTime (word ++ tail) = none := by
  have hword := eq_none_of_takes Reader.takes_colon_dateTime Token.exact_dateTime h
  cases hends with
  | nil => rw [List.append_nil, hword]
  | closeParen tail => rw [Reader.stops_dateTime rfl rfl, hword]; rfl
  | space hclock => exact dateTime_word_space h hclock

end words

/-! ### Phrases -/

namespace Token

section again
variable {cs rest tail : List Char} {token : Token}

theorem phrase_not_mem {mark : Char} {inside : List Char}
    (h : phrase mark cs = some (inside, rest)) : mark ∉ inside := by
  cases cs with
  | nil => cases h
  | cons c cs =>
      simp only [phrase] at h
      split at h
      · split at h
        · cases h
        · cases h
          intro hmem
          simpa using List.all_eq_true.mp List.all_takeWhile mark hmem
      · cases h

theorem phrase_again {mark : Char} {inside : List Char} (h : mark ∉ inside) (tail : List Char) :
    phrase mark (mark :: (inside ++ mark :: tail)) = some (inside, tail) := by
  have hinside : ∀ c ∈ inside, (c != mark) = true := by
    intro c hc
    rw [bne_iff_ne]
    rintro rfl
    exact h hc
  simp [phrase, List.takeWhile_append_of_pos hinside, List.dropWhile_append_of_pos hinside]

theorem read?_mark (quote : Quote) (cs : List Char) :
    read? (quote.mark :: cs) = readQuoted quote (quote.mark :: cs) := by
  cases quote with
  | double => exact read?_doubleQuote cs
  | single => exact read?_singleQuote cs

theorem read?_quoted {quote : Quote} {text : String} (h : quote.mark ∉ text.toList)
    (tail : List Char) :
    read? ((quoted quote text).text.toList ++ tail) = some (.quoted quote text, tail) := by
  have htext : (quoted quote text).text.toList ++ tail =
      quote.mark :: (text.toList ++ quote.mark :: tail) := by
    simp [Token.text, Quote.around]
  rw [htext, read?_mark, readQuoted, phrase_again h]
  simp

/-! ### Words -/

theorem firm_wordRun : Reader.Firm isWordChar Reader.wordRun :=
  Reader.firm_seq_never (Reader.firm_one _) (Reader.firm_run _)

theorem isOpening_of_isWordStart {c : Char} (h : isWordStart c = true) : isOpening c = false := by
  simp only [isWordStart, isWordChar, Bool.and_eq_true, Bool.not_eq_true', Bool.or_eq_false_iff,
    beq_eq_false_iff_ne] at h
  simp [isOpening, h]

theorem exists_wordStart {word : List Char} (h : Reader.wordRun cs = some (word, rest)) :
    ∃ c more, isWordStart c = true ∧ word = c :: more := by
  obtain ⟨first, more, mid, h1, h2, rfl⟩ := Reader.seq_eq_some.mp h
  cases cs with
  | nil => cases h1
  | cons c cs =>
      simp only [Reader.one] at h1
      split at h1
      · next hc =>
        cases h1
        exact ⟨c, more, hc, rfl⟩
      · cases h1

/-- A word is read again where it is no date and no time. -/
theorem read?_word {word : List Char} (h : Reader.wordRun cs = some (word, rest))
    (htail : ∀ c ∈ tail.head?, isWordChar c = false)
    (hdate : Reader.dateTime (word ++ tail) = none)
    (htime : Reader.timeOfDay (word ++ tail) = none) :
    read? (word ++ tail) = some (ofWord (String.ofList word), tail) := by
  have hrun := firm_wordRun _ _ _ tail h htail
  obtain ⟨c, more, hc, rfl⟩ := exists_wordStart h
  have hcolon : c ≠ ':' := by
    rintro rfl
    cases hc
  rw [List.cons_append] at hdate htime hrun ⊢
  rw [read?_of_not_opening (isOpening_of_isWordStart hc), readPlain, readLiteral, readLiteral,
    LiteralForm.reader, LiteralForm.reader, hdate, htime, readSymbol_cons_of_ne hcolon, readWord,
    hrun]
  rfl

theorem isWordChar_of_isDigit {c : Char} (h : c.isDigit = true) : isWordChar c = true := by
  have hne {d : Char} (hd : d.isDigit = false) : c ≠ d := by
    rintro rfl
    rw [h] at hd
    cases hd
  have hblank : isBlank c = false := by
    simp only [Char.isDigit, Bool.and_eq_true, decide_eq_true_eq] at h
    have hlow : 48 ≤ c.toNat := h.1
    have hhigh : c.toNat ≤ 57 := h.2
    simp only [isBlank, inRanges, blankRanges, List.any_cons, List.any_nil, Bool.or_false,
      Bool.or_eq_false_iff, Bool.and_eq_false_iff, decide_eq_false_iff_not]
    omega
  simp [isWordChar, hblank, hne]

theorem beginsWithDigit_append_eq_false {word : List Char} (h : beginsWithDigit word = false)
    (htail : ∀ c ∈ tail.head?, isWordChar c = false) : beginsWithDigit (word ++ tail) = false := by
  cases tail with
  | nil => rw [List.append_nil, h]
  | cons x tail =>
      have hx : isWordChar x = false := htail x rfl
      have hdigit : x.isDigit = false := by
        cases hd : x.isDigit with
        | false => rfl
        | true => rw [isWordChar_of_isDigit hd] at hx; cases hx
      have hsign : Reader.comparisonChar x = false := by
        simp only [Reader.comparisonChar, Bool.or_eq_false_iff, beq_eq_false_iff_ne]
        refine ⟨⟨?_, ?_⟩, ?_⟩
        all_goals
          rintro rfl
          cases hx
      cases hwhole : beginsWithDigit (word ++ x :: tail) with
      | false => rfl
      | true =>
          rw [beginsWithDigit_of_append_cons hsign hdigit hwhole] at h
          cases h

/-- A word without a digit at its beginning is no part of a date or a time. -/
theorem read?_word_of_beginsWithDigit {word : List Char}
    (h : Reader.wordRun cs = some (word, rest)) (hdigit : beginsWithDigit word = false)
    (htail : ∀ c ∈ tail.head?, isWordChar c = false) :
    read? (word ++ tail) = some (ofWord (String.ofList word), tail) := by
  have hwhole := beginsWithDigit_append_eq_false hdigit htail
  exact read?_word h htail (dateTime_eq_none hwhole) (timeOfDay_eq_none hwhole)

/-- A word in front of something that ends it is no date and no time. -/
theorem read?_word_of_ends {word : List Char} (h : Reader.wordRun cs = some (word, rest))
    (hends : EndsToken tail) :
    read? (word ++ tail) = some (ofWord (String.ofList word), tail) := by
  have hcolon : ':' ∉ word := by
    intro hmem
    have := Reader.only_wordRun _ _ _ h _ hmem
    cases this
  apply read?_word h
  · exact fun c hc => (hends.head c hc).2
  · exact dateTime_word hcolon hends
  · exact timeOfDay_word hcolon hends

/-! ### Literals -/

theorem exists_not_opening (h : beginsWithDigit cs = true) :
    ∃ c more, isOpening c = false ∧ cs = c :: more := by
  obtain ⟨sign, hsign, d, more, hd, rfl⟩ := beginsWithDigit_iff.mp h
  have hdigit : isOpening d = false := by
    have hne {c : Char} (hc : c.isDigit = false) : d ≠ c := by
      rintro rfl
      rw [hd] at hc
      cases hc
    simp [isOpening, hne]
  simp only [comparisonSigns, List.mem_cons, List.not_mem_nil, or_false] at hsign
  rcases hsign with rfl | rfl | rfl | rfl | rfl
  · exact ⟨_, _, rfl, rfl⟩
  · exact ⟨_, _, rfl, rfl⟩
  · exact ⟨_, _, rfl, rfl⟩
  · exact ⟨_, _, rfl, rfl⟩
  · exact ⟨_, _, hdigit, rfl⟩

theorem digits_cons_eq_none {n : Nat} (h : Reader.digits n cs = none) (d : Char) :
    Reader.digits (n + 1) (d :: cs) = none := by
  have hseq : Reader.digits (n + 1) (d :: cs) = Reader.seq Reader.digit (Reader.digits n) (d :: cs) :=
    rfl
  rw [hseq, Reader.seq, Reader.digit, Reader.one]
  cases d.isDigit with
  | true => simp [h]
  | false => simp

/-- Among the first three characters of a time of day is its colon, where a calendar date has a
digit. -/
theorem calendarDate_of_hours {hours : List Char}
    (h : Reader.chain [Reader.digit, Reader.optional Reader.digit] cs = some (hours, rest))
    (minutes : List Char) : Reader.calendarDate (hours ++ ':' :: minutes) = none := by
  have hcolon (n : Nat) : Reader.digits (n + 1) (':' :: minutes) = none := rfl
  have hyear : Reader.digits 4 (hours ++ ':' :: minutes) = none := by
    obtain ⟨first, more, mid, h1, h2, rfl⟩ := Reader.seq_eq_some.mp h
    obtain ⟨second, more, mid', h3, h4, rfl⟩ := Reader.seq_eq_some.mp h2
    cases h4
    obtain ⟨d, rfl⟩ := List.length_eq_one_iff.mp (Reader.length_one h1)
    simp only [Reader.optional, Option.or_eq_some_iff, Option.some.injEq, Prod.mk.injEq] at h3
    rcases h3 with h3 | ⟨-, rfl, -⟩
    · obtain ⟨e, rfl⟩ := List.length_eq_one_iff.mp (Reader.length_one h3)
      exact digits_cons_eq_none (digits_cons_eq_none (hcolon 1) e) d
    · exact digits_cons_eq_none (hcolon 2) d
  rw [Reader.calendarDate, Reader.chain, Reader.seq, hyear]

/-- A time of day is not the beginning of a date. -/
theorem dateTime_of_timeOfDay {text : List Char} (h : Reader.timeOfDay cs = some (text, rest))
    (tail : List Char) : Reader.dateTime (text ++ tail) = none := by
  obtain ⟨sign, b, mid, h1, h2, rfl⟩ := Reader.seq_eq_some.mp h
  obtain ⟨first, b, after, h3, h4, rfl⟩ := Reader.seq_eq_some.mp h2
  obtain ⟨second, b, after', h5, h6, rfl⟩ := Reader.seq_eq_some.mp h4
  obtain ⟨colon, b, after'', h7, -, rfl⟩ := Reader.seq_eq_some.mp h6
  obtain ⟨rfl, -⟩ := Reader.char_eq_some.mp h7
  have hhours : Reader.chain [Reader.digit, Reader.optional Reader.digit] mid =
      some (first ++ second, after') := by
    refine Reader.seq_eq_some.mpr ⟨first, second, after, h3, ?_, rfl⟩
    exact Reader.seq_eq_some.mpr ⟨second, [], after', h5, rfl, (List.append_nil _).symm⟩
  have hdate := calendarDate_of_hours hhours (b ++ tail)
  have hsign : Reader.comparison (sign ++ (first ++ second ++ ':' :: (b ++ tail))) =
      some (sign, first ++ second ++ ':' :: (b ++ tail)) := by
    apply Reader.firm_comparison _ _ _ _ h1
    obtain ⟨d, rfl⟩ := List.length_eq_one_iff.mp (Reader.length_one h3)
    have hd : d.isDigit = true := Reader.only_one (fun _ hc => hc) _ _ _ h3 d (by simp)
    intro c hc
    cases hc
    exact Reader.comparisonChar_of_isDigit d hd
  have htext : sign ++ (first ++ (second ++ ([':'] ++ b))) ++ tail =
      sign ++ (first ++ second ++ ':' :: (b ++ tail)) := by simp
  rw [htext, Reader.dateTime, Reader.chain, Reader.seq, hsign, Reader.chain]
  dsimp only
  rw [Reader.seq, hdate]

theorem read?_literal {form : LiteralForm} {text : List Char}
    (h : form.reader cs = some (text, rest)) (hends : ∀ c ∈ tail.head?, Reader.goesOn c = false) :
    read? (text ++ tail) = some (.literal form (String.ofList text), tail) := by
  have hagain := form.firm_reader _ _ _ tail h hends
  have hmap : readLiteral form (text ++ tail) = some (.literal form (String.ofList text), tail) := by
    rw [readLiteral, hagain]
    rfl
  cases form with
  | bracketed =>
      obtain ⟨a, more, mid, h1, -, rfl⟩ := Reader.seq_eq_some.mp h
      obtain ⟨rfl, -⟩ := Reader.char_eq_some.mp h1
      exact (read?_openBracket _).trans hmap
  | regex =>
      obtain ⟨a, more, mid, h1, -, rfl⟩ := Reader.seq_eq_some.mp h
      obtain ⟨rfl, -⟩ := Reader.char_eq_some.mp h1
      exact (read?_slash _).trans hmap
  | dateTime =>
      obtain ⟨c, more, hc, rfl⟩ := exists_not_opening (beginsWithDigit_of_dateTime h)
      rw [List.cons_append] at hmap ⊢
      rw [read?_of_not_opening hc, readPlain, hmap]
      rfl
  | time =>
      have hdate : readLiteral .dateTime (text ++ tail) = none := by
        rw [readLiteral, LiteralForm.reader, dateTime_of_timeOfDay h]
        rfl
      obtain ⟨c, more, hc, rfl⟩ := exists_not_opening (beginsWithDigit_of_timeOfDay h)
      rw [List.cons_append] at hmap hdate ⊢
      rw [read?_of_not_opening hc, readPlain, hdate, hmap]
      rfl

/-! ### All tokens -/

theorem IsLexical.word {text : String} (h : (word text).IsLexical) :
    (∃ cs rest, Reader.wordRun cs = some (text.toList, rest)) ∧ ofWord text = .word text := by
  obtain ⟨cs, rest, hread⟩ := h
  rcases read?_cases hread with ⟨h, -⟩ | ⟨_, _, -, h⟩ | ⟨_, _, -, h⟩ | ⟨run, hrun, h, hword⟩
  · simp at h
  · cases h
  · cases h
  · cases h
    exact ⟨⟨_, rest, by rw [hrun, String.toList_ofList]⟩, hword⟩

theorem IsLexical.quoted {quote : Quote} {text : String} (h : (quoted quote text).IsLexical) :
    quote.mark ∉ text.toList := by
  obtain ⟨cs, rest, hread⟩ := h
  rcases read?_cases hread with ⟨h, -⟩ | ⟨_, _, hphrase, h⟩ | ⟨_, _, -, h⟩ | ⟨_, -, h, -⟩
  · simp at h
  · cases h
    rw [String.toList_ofList]
    exact phrase_not_mem hphrase
  · cases h
  · cases h

theorem IsLexical.literal {form : LiteralForm} {text : String}
    (h : (literal form text).IsLexical) :
    ∃ cs rest, form.reader cs = some (text.toList, rest) := by
  obtain ⟨cs, rest, hread⟩ := h
  rcases read?_cases hread with ⟨h, -⟩ | ⟨_, _, -, h⟩ | ⟨_, run, hform, h⟩ | ⟨_, -, h, -⟩
  · simp at h
  · cases h
  · cases h
    exact ⟨_, rest, by rw [hform, String.toList_ofList]⟩
  · cases h

theorem isLexical_quoted {quote : Quote} {text : String} (h : quote.mark ∉ text.toList) :
    (quoted quote text).IsLexical := by
  have hread := read?_quoted h []
  rw [List.append_nil] at hread
  have htext : (quoted quote text).text.toList =
      quote.mark :: (text.toList ++ [quote.mark]) := by simp [Token.text, Quote.around]
  refine ⟨(quoted quote text).text.toList, [], ?_⟩
  rw [htext] at hread ⊢
  cases quote <;> exact hread

/-- A text of characters with which words can start is a word, unless it is an operator. -/
theorem isLexical_word {text : String} (hne : text ≠ "")
    (h : ∀ c ∈ text.toList, isWordStart c = true) (hword : ofWord text = .word text) :
    (word text).IsLexical := by
  have hchars : text.toList ≠ [] := by simpa using hne
  obtain ⟨c, cs, hcs⟩ := List.exists_cons_of_ne_nil hchars
  have hwordChar : ∀ c ∈ text.toList, isWordChar c = true := by
    intro c hc
    have hstart := h c hc
    rw [isWordStart, Bool.and_eq_true] at hstart
    exact hstart.1
  rw [hcs] at h hwordChar
  have hrun : Reader.wordRun (c :: cs) = some (c :: cs, []) := by
    have hall : ∀ d ∈ cs, isWordChar d = true := fun d hd => hwordChar d (by simp [hd])
    simp [Reader.wordRun, Reader.seq, Reader.one, Reader.run, h c (by simp),
      List.takeWhile_eq_self_iff.mpr hall, List.dropWhile_eq_nil_iff.mpr hall]
  have hblank : isBlank c = false := by
    have hc := hwordChar c (by simp)
    simp only [isWordChar, Bool.not_eq_true', Bool.or_eq_false_iff] at hc
    exact hc.1.1.1.1.1.1
  have hread := read?_word_of_ends hrun .nil
  rw [List.append_nil, ← hcs, String.ofList_toList, hword] at hread
  refine ⟨text.toList, [], ?_⟩
  rw [hcs] at hread ⊢
  rw [trimStart_cons, hblank]
  exact hread

/-- The text of a token does not start with a blank. -/
theorem IsLexical.trimStart_append (h : token.IsLexical) (tail : List Char) :
    trimStart (token.text.toList ++ tail) = token.text.toList ++ tail := by
  obtain ⟨cs, rest, hread⟩ := h
  obtain ⟨htext, hne⟩ := read?_eq_some hread
  obtain ⟨c, more, hcons⟩ := List.exists_cons_of_ne_nil hne
  rw [hcons] at htext ⊢
  have hc := isBlank_of_trimStart_eq_cons htext
  rw [List.cons_append, trimStart_cons, hc]
  rfl

theorem read?_colon (tail : List Char) : read? (':' :: tail) = some (.colon, tail) := by
  have hdigit : beginsWithDigit (':' :: tail) = false := rfl
  rw [read?_of_not_opening rfl, readPlain, readLiteral, readLiteral, LiteralForm.reader,
    LiteralForm.reader, dateTime_eq_none hdigit, timeOfDay_eq_none hdigit]
  rfl

/-- An operator is read again in front of anything that is no part of a word. -/
theorem read?_operator {operator : Token} (h : operator ∈ [and, or, not])
    (htail : ∀ c ∈ tail.head?, isWordChar c = false) :
    read? (operator.text.toList ++ tail) = some (operator, tail) := by
  have hrun : Reader.wordRun operator.text.toList = some (operator.text.toList, []) := by
    simp only [List.mem_cons, List.not_mem_nil, or_false] at h
    rcases h with rfl | rfl | rfl <;> cbv
  have hdigit : beginsWithDigit operator.text.toList = false := by
    simp only [List.mem_cons, List.not_mem_nil, or_false] at h
    rcases h with rfl | rfl | rfl <;> cbv
  have hword : ofWord operator.text = operator := by
    simp only [List.mem_cons, List.not_mem_nil, or_false] at h
    rcases h with rfl | rfl | rfl <;> rfl
  rw [read?_word_of_beginsWithDigit hrun hdigit htail, String.ofList_toList, hword]

/-- **A token is read again off its own text**, if what follows ends it. -/
theorem read?_again (h : token.IsLexical) (hends : EndsToken tail) :
    read? (token.text.toList ++ tail) = some (token, tail) := by
  have htail : ∀ c ∈ tail.head?, isWordChar c = false := fun c hc => (hends.head c hc).2
  cases token with
  | and => exact read?_operator (by simp) htail
  | or => exact read?_operator (by simp) htail
  | not => exact read?_operator (by simp) htail
  | openParen => rfl
  | closeParen => rfl
  | colon => exact read?_colon tail
  | quoted quote text => exact read?_quoted h.quoted tail
  | literal form text =>
      obtain ⟨cs, rest, hform⟩ := h.literal
      have hread := read?_literal hform fun c hc => (hends.head c hc).1
      rw [String.ofList_toList] at hread
      exact hread
  | word text =>
      obtain ⟨⟨cs, rest, hrun⟩, hword⟩ := h.word
      have hread := read?_word_of_ends hrun hends
      rw [String.ofList_toList, hword] at hread
      exact hread

theorem scan_again (h : token.IsLexical) (hends : EndsToken tail) :
    scan (token.text.toList ++ tail) = (scan tail).map (token :: ·) := by
  apply scan_of_read?
  rw [h.trimStart_append, read?_again h hends]

theorem scan_word_colon_of_read? {text : String} (h : (word text).IsLexical) {tail : List Char}
    (hread : read? (text.toList ++ ':' :: tail) = some (.word text, ':' :: tail)) :
    scan (text.toList ++ ':' :: tail) = (scan tail).map fun more => .word text :: .colon :: more := by
  have hblank : trimStart (text.toList ++ ':' :: tail) = text.toList ++ ':' :: tail :=
    h.trimStart_append (':' :: tail)
  have hcolon : scan (':' :: tail) = (scan tail).map (.colon :: ·) :=
    scan_of_read? (read?_colon tail)
  have hscan : scan (text.toList ++ ':' :: tail) = (scan (':' :: tail)).map (.word text :: ·) :=
    scan_of_read? (by rw [hblank, hread])
  rw [hscan, hcolon]
  cases scan tail <;> rfl

/-- A word in front of a colon is read again, unless it begins with a digit. -/
theorem scan_word_colon {text : String} (h : (word text).IsLexical)
    (hdigit : beginsWithDigit text.toList = false) (tail : List Char) :
    scan (text.toList ++ ':' :: tail) = (scan tail).map fun more => .word text :: .colon :: more := by
  obtain ⟨⟨cs, rest, hrun⟩, hword⟩ := h.word
  apply scan_word_colon_of_read? h
  have htail : ∀ c ∈ (':' :: tail).head?, isWordChar c = false := by
    intro c hc
    cases hc
    rfl
  rw [read?_word_of_beginsWithDigit hrun hdigit htail, String.ofList_toList, hword]

/-- So is a word that ends with a character which no date and no time has, since a date or a time
would have to go on behind the colon. -/
theorem scan_word_colon_of_last {text : String} (h : (word text).IsLexical) {before : List Char}
    {x : Char} (htext : text.toList = before ++ [x]) (hx : Reader.isTimeless x = true)
    (hsep : (x == 'T' || x == ' ') = false) (tail : List Char) :
    scan (text.toList ++ ':' :: tail) = (scan tail).map fun more => .word text :: .colon :: more := by
  obtain ⟨⟨cs, rest, hrun⟩, hword⟩ := h.word
  apply scan_word_colon_of_read? h
  have hcolon : ':' ∉ before := by
    intro hmem
    have hmem : ':' ∈ text.toList := by simp [htext, hmem]
    cases Reader.only_wordRun _ _ _ hrun _ hmem
  have htail : ∀ c ∈ (':' :: tail).head?, isWordChar c = false := by
    intro c hc
    cases hc
    rfl
  have hsplit : text.toList ++ ':' :: tail = before ++ x :: (':' :: tail) := by simp [htext]
  have hdate := eq_none_of_takes Reader.takes_colon_dateTime exact_dateTime hcolon
  have htime := eq_none_of_takes Reader.takes_colon_timeOfDay exact_timeOfDay hcolon
  rw [read?_word hrun htail, String.ofList_toList, hword]
  · rw [hsplit, Reader.stops_dateTime hx hsep, hdate]
    rfl
  · rw [hsplit, Reader.stops_timeOfDay hx, htime]
    rfl

/-- An operator and a space after it. -/
theorem scan_operator_space {operator : Token} (h : operator ∈ [and, or, not])
    (tail : List Char) :
    scan (operator.text.toList ++ ' ' :: tail) = (scan tail).map (operator :: ·) := by
  have hlexical : operator.IsLexical := by
    refine ⟨operator.text.toList, [], ?_⟩
    simp only [List.mem_cons, List.not_mem_nil, or_false] at h
    rcases h with rfl | rfl | rfl <;> cbv
  have hread : read? (operator.text.toList ++ ' ' :: tail) = some (operator, ' ' :: tail) := by
    apply read?_operator h
    intro c hc
    cases hc
    rfl
  have hscan : scan (operator.text.toList ++ ' ' :: tail) =
      (scan (' ' :: tail)).map (operator :: ·) :=
    scan_of_read? (by rw [hlexical.trimStart_append, hread])
  rw [hscan, scan_cons_blank rfl]

end again

end Token

end QueryFilter
