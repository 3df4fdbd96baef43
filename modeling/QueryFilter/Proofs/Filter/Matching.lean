import QueryFilter.Filter.Compile

/-! # What the regular expressions of a filter match

Wildcards and free texts become regular expressions.  Here is what such an expression means: it is
read item by item (`readRegex?`), and it finds a match in a text if its items match one after the
other from some place on (`RegexFinds`).  A character that is an operator of regular expressions has
to stand behind a backslash.

So read, the expression of a wildcard finds a match exactly in the texts that come about when every
`*` is replaced by some text (`Fills`), and the expression of a phrase or of words exactly in the
texts that contain them (`regexes_match`). -/

namespace QueryFilter

/-! ### Regular expressions -/

/-- What a part of a regular expression asks for. -/
inductive RegexItem where
  /-- `^`: the beginning of the text. -/
  | start
  /-- `$`: the end of the text. -/
  | finish
  /-- `.*`: any characters of one line. -/
  | run
  | char (c : Char)
deriving DecidableEq, Repr

/-- The operators of regular expressions. -/
def regexOperators : List Char :=
  ['\\', '^', '$', '.', '|', '?', '*', '+', '(', ')', '[', ']', '\x7b', '\x7d']

/-- Reads a regular expression without alternatives, classes and groups.  Behind a backslash every
character but a letter or a digit stands for itself. -/
def readRegex? : List Char → Option (List RegexItem)
  | [] => some []
  | '\\' :: c :: cs => if c.isAlphanum then none else (readRegex? cs).map (.char c :: ·)
  | '.' :: '*' :: cs => (readRegex? cs).map (.run :: ·)
  | '^' :: cs => (readRegex? cs).map (.start :: ·)
  | '$' :: cs => (readRegex? cs).map (.finish :: ·)
  | c :: cs => if regexOperators.contains c then none else (readRegex? cs).map (.char c :: ·)

/-- The items match one after the other what follows `before` in a text. -/
def MatchesAt : List RegexItem → List Char → List Char → Prop
  | [], _, _ => True
  | .start :: items, before, rest => before = [] ∧ MatchesAt items before rest
  | .finish :: items, before, rest => rest = [] ∧ MatchesAt items before rest
  | .run :: items, before, rest =>
    ∃ run after, rest = run ++ after ∧ '\n' ∉ run ∧ MatchesAt items (before ++ run) after
  | .char c :: items, before, rest =>
    ∃ after, rest = c :: after ∧ MatchesAt items (before ++ [c]) after

/-- The regular expression finds a match somewhere in the text. -/
def RegexFinds (pattern text : String) : Prop :=
  ∃ items before rest, readRegex? pattern.toList = some items ∧ text.toList = before ++ rest ∧
    MatchesAt items before rest

theorem regexFinds_iff {pattern text : String} {items : List RegexItem}
    (h : readRegex? pattern.toList = some items) :
    RegexFinds pattern text ↔
      ∃ before rest, text.toList = before ++ rest ∧ MatchesAt items before rest := by
  simp [RegexFinds, h]

/-! ### Texts as themselves -/

/-- A character that is no operator is read as itself. -/
theorem readRegex?_cons {c : Char} (h : c ∉ regexOperators) (cs : List Char) :
    readRegex? (c :: cs) = (readRegex? cs).map (.char c :: ·) := by
  have hne (operator : Char) (ho : operator ∈ regexOperators) : c ≠ operator := by
    rintro rfl
    exact h ho
  rw [readRegex?]
  · rw [if_neg (by simpa using h)]
  · exact fun _ _ e => absurd e (hne '\\' (by decide))
  · exact fun _ e => absurd e (hne '.' (by decide))
  · exact fun e => absurd e (hne '^' (by decide))
  · exact fun e => absurd e (hne '$' (by decide))

/-- An escaped character is read as itself. -/
theorem readRegex?_escapeRegexChar (c : Char) (cs : List Char) :
    readRegex? (escapeRegexChar c ++ cs) = (readRegex? cs).map (.char c :: ·) := by
  have hescaped : ∀ special ∈ regexSpecials, (!special.isAlphanum) = true :=
    List.all_eq_true.mp rfl
  have hoperators : ∀ operator ∈ regexOperators, regexSpecials.contains operator = true :=
    List.all_eq_true.mp rfl
  unfold escapeRegexChar
  split
  · next h =>
    have hplain : c.isAlphanum = false := by simpa using hescaped c (by simpa using h)
    rw [List.cons_append, List.cons_append, List.nil_append, readRegex?, hplain,
      if_neg Bool.false_ne_true]
  · next h =>
    exact readRegex?_cons (fun ho => h (by simpa using hoperators c ho)) cs

/-- An escaped text is read as itself. -/
theorem readRegex?_escapeRegex (literal cs : List Char) :
    readRegex? (escapeRegex literal ++ cs) = (readRegex? cs).map (literal.map .char ++ ·) := by
  induction literal with
  | nil => simp [escapeRegex]
  | cons c literal ih =>
      rw [escapeRegex, List.flatMap_cons, List.append_assoc, readRegex?_escapeRegexChar]
      rw [escapeRegex] at ih
      rw [ih, Option.map_map]
      rfl

/-- Characters match the text that starts with them. -/
theorem matchesAt_chars {literal before rest : List Char} :
    MatchesAt (literal.map .char) before rest ↔ literal <+: rest := by
  induction literal generalizing before rest with
  | nil => simp [MatchesAt]
  | cons c literal ih =>
      simp only [List.map_cons, MatchesAt, ih]
      constructor
      · rintro ⟨after, rfl, h⟩
        exact (List.prefix_cons_inj c).mpr h
      · rintro ⟨more, rfl⟩
        exact ⟨literal ++ more, rfl, ⟨more, rfl⟩⟩

/-- The expression of a text finds a match where the text is contained. -/
theorem regexFinds_escapeRegex (literal text : String) :
    RegexFinds (String.ofList (escapeRegex literal.toList)) text ↔
      literal.toList <:+: text.toList := by
  have hread := readRegex?_escapeRegex literal.toList []
  rw [List.append_nil] at hread
  rw [regexFinds_iff (by rw [String.toList_ofList, hread]; rfl)]
  simp only [List.append_nil, matchesAt_chars]
  constructor
  · rintro ⟨before, rest, htext, after, rfl⟩
    exact ⟨before, after, by rw [htext, List.append_assoc]⟩
  · rintro ⟨before, after, htext⟩
    exact ⟨before, literal.toList ++ after, by rw [← htext, List.append_assoc], after, rfl⟩

/-! ### Wildcards -/

/-- The text comes about when every `*` of the glob is replaced by some text. -/
inductive Fills : List Char → List Char → Prop
  | nil : Fills [] []
  | star {glob text : List Char} (run : List Char) (h : Fills glob text) :
      Fills ('*' :: glob) (run ++ text)
  | char {glob text : List Char} {c : Char} (hc : c ≠ '*') (h : Fills glob text) :
      Fills (c :: glob) (c :: text)

/-- What a character of a glob asks for. -/
def globItem (c : Char) : RegexItem := if c = '*' then .run else .char c

theorem readRegex?_glob (glob cs : List Char) :
    readRegex? (glob.flatMap globChar ++ cs) = (readRegex? cs).map (glob.map globItem ++ ·) := by
  induction glob with
  | nil => simp
  | cons c glob ih =>
      rw [List.flatMap_cons, List.append_assoc]
      by_cases hstar : c = '*'
      · subst hstar
        have hchar : globChar '*' = ['.', '*'] := rfl
        rw [hchar, List.cons_append, List.cons_append, List.nil_append, readRegex?, ih,
          Option.map_map]
        rfl
      · have hchar : globChar c = escapeRegexChar c := by simp [globChar, hstar]
        have hitem : globItem c = .char c := by simp [globItem, hstar]
        rw [hchar, readRegex?_escapeRegexChar, ih, Option.map_map, List.map_cons, hitem]
        rfl

/-- The items of a glob match a filled glob, and what comes after them matches behind it. -/
theorem matchesAt_glob {glob before rest : List Char} (items : List RegexItem)
    (hline : '\n' ∉ rest) :
    MatchesAt (glob.map globItem ++ items) before rest ↔
      ∃ filled after, rest = filled ++ after ∧ Fills glob filled ∧
        MatchesAt items (before ++ filled) after := by
  induction glob generalizing before rest with
  | nil =>
      constructor
      · intro h
        exact ⟨[], rest, rfl, .nil, by simpa using h⟩
      · rintro ⟨filled, after, rfl, hfills, h⟩
        cases hfills
        simpa using h
  | cons c glob ih =>
      by_cases hstar : c = '*'
      · -- The run of a star can be of any length, so its filling is split off the matched text.
        subst hstar
        have hitem : globItem '*' = .run := rfl
        simp only [List.map_cons, hitem, List.cons_append, MatchesAt]
        constructor
        · rintro ⟨run, rest, rfl, -, h⟩
          simp only [List.mem_append, not_or] at hline
          obtain ⟨filled, after, rfl, hfills, h⟩ := (ih hline.2).mp h
          rw [List.append_assoc] at h
          exact ⟨run ++ filled, after, by simp, .star run hfills, h⟩
        · rintro ⟨_, after, rfl, hfills, h⟩
          cases hfills with
          | @star _ filled run hfills =>
              rw [List.append_assoc, List.mem_append, not_or] at hline
              rw [← List.append_assoc] at h
              exact ⟨run, filled ++ after, by simp, hline.1,
                (ih hline.2).mpr ⟨filled, after, rfl, hfills, h⟩⟩
          | char hc => exact absurd rfl hc
      · have hitem : globItem c = .char c := by simp [globItem, hstar]
        simp only [List.map_cons, hitem, List.cons_append, MatchesAt]
        constructor
        · rintro ⟨rest, rfl, h⟩
          rw [List.mem_cons, not_or] at hline
          obtain ⟨filled, after, rfl, hfills, h⟩ := (ih hline.2).mp h
          rw [List.append_assoc] at h
          exact ⟨c :: filled, after, rfl, .char hstar hfills, h⟩
        · rintro ⟨_, after, rfl, hfills, h⟩
          cases hfills with
          | star => exact absurd rfl hstar
          | @char _ filled _ _ hfills =>
              rw [List.cons_append, List.mem_cons, not_or] at hline
              rw [List.append_cons] at h
              exact ⟨filled ++ after, rfl, (ih hline.2).mpr ⟨filled, after, rfl, hfills, h⟩⟩

/-- A `*` at the beginning takes what stands before the text. -/
theorem Fills.append_left {glob text : List Char} (h : Fills glob text)
    (hstar : glob.head? = some '*') (before : List Char) : Fills glob (before ++ text) := by
  cases h with
  | nil => cases hstar
  | star run h =>
      rw [← List.append_assoc]
      exact .star (before ++ run) h
  | char hc _ => exact absurd (Option.some.inj hstar) hc

/-- A `*` at the end takes what stands behind the text. -/
theorem Fills.append_right {glob text : List Char} (h : Fills glob text)
    (hstar : glob.getLast? = some '*') (after : List Char) : Fills glob (text ++ after) := by
  induction h with
  | nil => cases hstar
  | @star glob text run h ih =>
      cases glob with
      | nil =>
          cases h
          simpa using Fills.star (run ++ after) .nil
      | cons d glob =>
          rw [List.getLast?_cons_cons] at hstar
          rw [List.append_assoc]
          exact .star run (ih hstar)
  | @char glob text c hc h ih =>
      cases glob with
      | nil => exact absurd (Option.some.inj hstar) hc
      | cons d glob =>
          rw [List.getLast?_cons_cons] at hstar
          exact .char hc (ih hstar)

/-- The beginning of the text, unless the glob starts with a `*`. -/
def startItems (glob : List Char) : List RegexItem :=
  if glob.head? == some '*' then [] else [.start]

/-- The end of the text, unless the glob ends with a `*`. -/
def finishItems (glob : List Char) : List RegexItem :=
  if glob.getLast? == some '*' then [] else [.finish]

theorem matchesAt_startItems {glob before rest : List Char} {items : List RegexItem} :
    MatchesAt (startItems glob ++ items) before rest ↔
      (glob.head? = some '*' ∨ before = []) ∧ MatchesAt items before rest := by
  unfold startItems
  by_cases h : glob.head? = some '*' <;> simp [h, MatchesAt]

theorem matchesAt_finishItems {glob before rest : List Char} :
    MatchesAt (finishItems glob) before rest ↔ glob.getLast? = some '*' ∨ rest = [] := by
  unfold finishItems
  by_cases h : glob.getLast? = some '*' <;> simp [h, MatchesAt]

theorem readRegex?_globRegex (glob : List Char) :
    readRegex? (globRegex glob) =
      some (startItems glob ++ (glob.map globItem ++ finishItems glob)) := by
  have hfinish : readRegex? (if glob.getLast? == some '*' then [] else ['$']) =
      some (finishItems glob) := by
    unfold finishItems
    split <;> rfl
  have hbody : readRegex? (glob.flatMap globChar ++
      if glob.getLast? == some '*' then [] else ['$']) =
        some (glob.map globItem ++ finishItems glob) := by
    rw [readRegex?_glob, hfinish, Option.map_some]
  rw [globRegex, startItems, List.append_assoc]
  split
  · exact hbody
  · rw [List.cons_append, List.nil_append, readRegex?, hbody]
    rfl

/-- The expression of a wildcard finds a match in the texts that fill its glob. -/
theorem regexFinds_wildcard (glob : String) {text : String} (hline : '\n' ∉ text.toList) :
    RegexFinds (Pattern.wildcard glob).toRegex text ↔ Fills glob.toList text.toList := by
  have hread := readRegex?_globRegex glob.toList
  rw [regexFinds_iff (by rw [Pattern.toRegex, String.toList_ofList, hread])]
  simp only [matchesAt_startItems]
  constructor
  · rintro ⟨before, rest, htext, hstart, h⟩
    rw [htext, List.mem_append, not_or] at hline
    obtain ⟨filled, after, rfl, hfills, hfinish⟩ := (matchesAt_glob _ hline.2).mp h
    rw [htext]
    have hright : Fills glob.toList (filled ++ after) := by
      rcases matchesAt_finishItems.mp hfinish with hstar | rfl
      · exact hfills.append_right hstar after
      · rwa [List.append_nil]
    rcases hstart with hstar | rfl
    · exact hright.append_left hstar before
    · exact hright
  · intro h
    refine ⟨[], text.toList, rfl, .inr rfl, (matchesAt_glob _ hline).mpr ?_⟩
    exact ⟨text.toList, [], by simp, h, matchesAt_finishItems.mpr (.inr rfl)⟩

/-! ### Free texts -/

/-- The free text is the literal as it stands: a phrase, or words without a `*`. -/
inductive FreeText.IsLiteral : FreeText → String → Prop
  | quoted (quote : Quote) (text : String) : IsLiteral (.quoted quote text) text
  | words {ws : List String} (h : ∀ word ∈ ws, '*' ∉ word.toList) :
      IsLiteral (.words ws) (" ".intercalate ws)

theorem star_not_mem_intercalate {ws : List String} (h : ∀ word ∈ ws, '*' ∉ word.toList) :
    '*' ∉ (" ".intercalate ws).toList := by
  induction ws with
  | nil => simp
  | cons word ws ih =>
      obtain ⟨hword, hrest⟩ := List.forall_mem_cons.mp h
      cases ws with
      | nil => rwa [String.intercalate_singleton]
      | cons second ws =>
          rw [String.intercalate_cons_cons, String.toList_append, String.toList_append]
          simp only [List.mem_append, not_or]
          exact ⟨⟨hword, by decide⟩, ih hrest⟩

/-- A default field is asked to contain the literal. -/
theorem FreeText.IsLiteral.condition_eq {text : FreeText} {literal : String}
    (h : text.IsLiteral literal) : text.condition = FreeText.contains literal := by
  cases h with
  | quoted quote text => rfl
  | words hwords =>
      rw [FreeText.condition]
      exact if_neg (by simpa using star_not_mem_intercalate hwords)

/-- **What the regular expressions of a filter match.**  That of a wildcard finds a match in the
texts that come about when every `*` is replaced by some text, and that of a phrase, or of words
without a `*`, in the texts that contain it. -/
theorem regexes_match :
    (∀ glob text : String, '\n' ∉ text.toList →
      (RegexFinds (Pattern.wildcard glob).toRegex text ↔ Fills glob.toList text.toList)) ∧
    ∀ (free : FreeText) (literal : String), free.IsLiteral literal →
      ∃ pattern, free.condition = [(Op.regex, .string pattern), (Op.options, .string "i")] ∧
        ∀ text : String, RegexFinds pattern text ↔ literal.toList <:+: text.toList :=
  ⟨fun glob _ hline => regexFinds_wildcard glob hline,
    fun _ literal h => ⟨_, h.condition_eq, regexFinds_escapeRegex literal⟩⟩

/-- Operators of regular expressions in a glob and in words. -/
theorem regexes_match_operators :
    RegexFinds (Pattern.wildcard "*a.b**c").toRegex "xa.b$c" ∧
    ¬RegexFinds (Pattern.wildcard "a.b*").toRegex "axb" ∧
    ∃ pattern, (FreeText.words ["(a+b)", "$c"]).condition =
        [(Op.regex, .string pattern), (Op.options, .string "i")] ∧
      RegexFinds pattern "1 (a+b) $c" := by
  refine ⟨?_, ?_, ?_⟩
  · have hfills : Fills ['*', 'a', '.', 'b', '*', '*', 'c'] ['x', 'a', '.', 'b', '$', 'c'] :=
      .star ['x'] (.char (by decide) (.char (by decide) (.char (by decide)
        (.star ['$'] (.star [] (.char (by decide) .nil))))))
    exact (regexes_match.1 "*a.b**c" "xa.b$c" (by decide)).mpr hfills
  · intro h
    have hfills : Fills ['a', '.', 'b', '*'] ['a', 'x', 'b'] :=
      (regexes_match.1 "a.b*" "axb" (by decide)).mp h
    cases hfills with
    | char _ hrest => cases hrest
  · have hwords : ∀ word ∈ ["(a+b)", "$c"], '*' ∉ word.toList := by decide
    obtain ⟨pattern, hcondition, hfinds⟩ := regexes_match.2 _ _ (.words hwords)
    exact ⟨pattern, hcondition, (hfinds "1 (a+b) $c").mpr ⟨['1', ' '], [], by decide⟩⟩

end QueryFilter
