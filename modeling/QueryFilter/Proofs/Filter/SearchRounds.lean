import Mathlib
import QueryFilter.Filter.SearchRounds
import QueryFilter.Proofs.Filter.Parity
import QueryFilter.Proofs.Text.Offset

/-! # Negating joined searches

Each round of the negation of a search cuts a term off, at an offset where a character starts or at
the end, and leaves less of the search than there was, so the rounds come to an end
(`SearchRound.take?_eq`, `SearchRound.first_rest_suffix`, `negateSearchIn?_eq`).

A search that was joined from two is negated in the rounds of the first and then in those of the
second, unless a phrase of the first is not closed and goes on into the second
(`negatedTerms_append_space`).  So negations can be joined instead, where each has a term that is
left (`negateSearch_distributes`). -/

namespace QueryFilter

open String (utf8Len)

/-! ### One round -/

/-- The round at the start of a search. -/
def SearchRound.first (search : List Char) : SearchRound :=
  let body := (takeSign search).2
  ⟨(takeSign search).1, (searchTerm body).1, trimStart (searchTerm body).2⟩

section round
variable {c : Char} {cs body rest : List Char}

theorem takeSign_of_ne (hc : c ≠ '-') (cs : List Char) : takeSign (c :: cs) = (false, c :: cs) := by
  rw [takeSign]
  rintro tail heq
  exact hc (List.cons.inj heq).1

theorem searchTerm_of_not_mem {phrase : List Char} (h : '"' ∉ phrase) :
    searchTerm ('"' :: phrase) = ('"' :: phrase, []) := by
  rw [searchTerm, List.dropWhile_eq_nil_iff.mpr (ne_quote_of_not_mem h)]

theorem searchTerm_closed {text : List Char} (h : '"' ∉ text) (rest : List Char) :
    searchTerm ('"' :: (text ++ '"' :: rest)) = ('"' :: (text ++ ['"']), rest) := by
  have hread := searchTerm_phrase h rest
  rwa [List.cons_append, List.append_assoc, List.singleton_append] at hread

theorem cutAt?_termEnd_phrase (phrase : List Char) :
    cutAt? (termEnd ('"' :: phrase)) ('"' :: phrase) = some (searchTerm ('"' :: phrase)) := by
  rw [termEnd, String.utf8ByteSize_ofList]
  cases hquote : offsetWhere? (· == '"') phrase with
  | none =>
      have hopen : '"' ∉ phrase := fun hmem => by
        simpa using offsetWhere?_eq_none hquote '"' hmem
      rw [searchTerm_of_not_mem hopen]
      exact cutAt?_end ('"' :: phrase)
  | some offset =>
      obtain ⟨text, c, rest, rfl, rfl, hc, htext⟩ := offsetWhere?_eq_some hquote
      obtain rfl : c = '"' := by simpa using hc
      have hclosed : '"' ∉ text := fun hmem => by simpa using htext '"' hmem
      have hsize : utf8Len ('"' :: (text ++ ['"'])) = utf8Len text + 2 := by
        rw [String.utf8Len_cons, String.utf8Len_append]
        rfl
      have hcut := cutAt?_append ('"' :: (text ++ ['"'])) rest
      rw [hsize, List.cons_append, List.append_assoc, List.singleton_append] at hcut
      rw [searchTerm_closed hclosed]
      exact hcut

theorem cutAt?_termEnd_word (h : body.head? ≠ some '"') :
    cutAt? (termEnd body) body = some (searchTerm body) := by
  have hend : termEnd body = (offsetWhere? isBlank body).getD (utf8Len body) := by
    rw [termEnd, String.utf8ByteSize_ofList]
    rintro phrase rfl
    exact h rfl
  rw [hend, searchTerm_of_head h]
  cases hblank : offsetWhere? isBlank body with
  | none =>
      have hall : ∀ c ∈ body, (!isBlank c) = true := fun c hc => by
        rw [offsetWhere?_eq_none hblank c hc]
        rfl
      rw [List.takeWhile_eq_self_iff.mpr hall, List.dropWhile_eq_nil_iff.mpr hall]
      exact cutAt?_end body
  | some offset =>
      obtain ⟨word, c, rest, rfl, rfl, hc, hword⟩ := offsetWhere?_eq_some hblank
      have hall : ∀ c ∈ word, (!isBlank c) = true := fun c hc => by
        rw [hword c hc]
        rfl
      rw [List.takeWhile_append_of_pos hall, List.dropWhile_append_of_pos hall,
        List.takeWhile_cons_of_neg (by simp [hc]), List.dropWhile_cons_of_neg (by simp [hc]),
        List.append_nil]
      exact cutAt?_append word (c :: rest)

/-- A search can be cut where its first term ends. -/
theorem cutAt?_termEnd (body : List Char) :
    cutAt? (termEnd body) body = some (searchTerm body) := by
  by_cases h : body.head? = some '"'
  · obtain ⟨phrase, rfl⟩ := List.head?_eq_some_iff.mp h
    exact cutAt?_termEnd_phrase phrase
  · exact cutAt?_termEnd_word h

/-- Every round has an outcome. -/
theorem SearchRound.take?_eq (search : List Char) : take? search = some (first search) := by
  show (cutAt? (termEnd (takeSign search).2) (takeSign search).2).map _ = _
  rw [cutAt?_termEnd]
  rfl

theorem searchTerm_blank (hc : isBlank c = true) (cs : List Char) :
    searchTerm (c :: cs) = ([], c :: cs) := by
  have hhead : (c :: cs).head? ≠ some '"' := by
    intro heq
    obtain rfl : c = '"' := Option.some.inj heq
    exact absurd hc (by decide)
  rw [searchTerm_of_head hhead, List.takeWhile_cons_of_neg (by simp [hc]),
    List.dropWhile_cons_of_neg (by simp [hc])]

theorem searchTerm_ne_nil (hc : isBlank c = false) (cs : List Char) :
    (searchTerm (c :: cs)).1 ≠ [] := by
  by_cases hquote : c = '"'
  · subst hquote
    rw [searchTerm]
    split <;> exact List.cons_ne_nil _ _
  · have hhead : (c :: cs).head? ≠ some '"' := by simpa using hquote
    rw [searchTerm_of_head hhead, List.takeWhile_cons_of_pos (by simp [hc])]
    exact List.cons_ne_nil _ _

theorem searchTerm_suffix (body : List Char) : (searchTerm body).2 <:+ body := by
  obtain ⟨heq, -⟩ := cutAt?_eq_some (cutAt?_termEnd body)
  exact ⟨_, heq.symm⟩

/-- A round leaves less than there was. -/
theorem SearchRound.first_rest_suffix (c : Char) (cs : List Char) :
    (first (c :: cs)).rest <:+ cs := by
  have htrim : ∀ cs, trimStart cs <:+ cs := fun cs => List.dropWhile_suffix _
  by_cases hsign : c = '-'
  · subst hsign
    exact (htrim _).trans (searchTerm_suffix cs)
  rw [first, takeSign_of_ne hsign]
  dsimp only
  cases hc : isBlank c with
  | true =>
      rw [searchTerm_blank hc, trimStart_cons, hc]
      exact htrim cs
  | false =>
      have hlt := length_searchTerm_lt hc cs
      rcases List.suffix_cons_iff.mp (searchTerm_suffix (c :: cs)) with heq | hsuffix
      · rw [heq] at hlt
        exact absurd hlt (lt_irrefl _)
      · exact (htrim _).trans hsuffix

end round

/-! ### All rounds -/

section rounds
variable {c : Char} {cs : List Char} {rounds : Nat}

theorem negatedTerms_trimStart (cs : List Char) :
    negatedTerms (trimStart cs) = negatedTerms cs := by
  rw [negatedTerms_eq, negatedTerms_eq cs, trimStart, trimStart, List.dropWhile_idempotent]

/-- The first round gives the first of the negated terms, if any, and the others give the rest. -/
theorem negatedTerms_cons (c : Char) (cs : List Char) :
    negatedTerms (c :: cs) =
      (SearchRound.first (c :: cs)).negated ++ negatedTerms (SearchRound.first (c :: cs)).rest := by
  rw [SearchRound.negated, SearchRound.first]
  dsimp only
  rw [negatedTerms_trimStart]
  cases hc : isBlank c with
  | true =>
      have hsign : c ≠ '-' := by
        rintro rfl
        exact absurd hc (by decide)
      rw [takeSign_of_ne hsign, searchTerm_blank hc]
      rfl
  | false =>
      rw [negatedTerms_eq, trimStart_cons_of_not_blank hc]
      dsimp only
      by_cases hsign : c = '-'
      · subst hsign
        rw [if_pos rfl, takeSign]
        split <;> rfl
      · have hterm : (searchTerm (c :: cs)).1.isEmpty = false := by
          simpa using searchTerm_ne_nil hc cs
        rw [if_neg hsign, takeSign_of_ne hsign]
        dsimp only
        rw [hterm]
        rfl

/-- As many rounds as there are characters are enough. -/
theorem negateRounds?_eq (h : cs.length ≤ rounds) (sofar : List (List Char)) :
    negateRounds? rounds sofar cs = some (sofar ++ negatedTerms cs) := by
  induction rounds generalizing cs sofar with
  | zero =>
      obtain rfl := List.length_eq_zero_iff.mp (Nat.le_zero.mp h)
      rw [negateRounds?, negatedTerms_nil, List.append_nil]
  | succ rounds ih =>
      cases cs with
      | nil => rw [negateRounds?, negatedTerms_nil, List.append_nil]
      | cons c cs =>
          have hlength := (SearchRound.first_rest_suffix c cs).length_le
          have hrest : (SearchRound.first (c :: cs)).rest.length ≤ rounds :=
            hlength.trans (Nat.le_of_succ_le_succ h)
          rw [negateRounds?, SearchRound.take?_eq, negatedTerms_cons, ← List.append_assoc]
          exact ih hrest _

/-- The rounds end with the negation of the search. -/
theorem negateSearchIn?_eq {search : String} (h : search.length ≤ rounds) :
    negateSearchIn? rounds search = some (negateSearch search) := by
  have hlength : (trimStart search.toList).length ≤ rounds := by
    rw [← String.length_toList] at h
    exact (length_trimStart_le _).trans h
  rw [negateSearchIn?, negateRounds?_eq hlength, List.nil_append, negatedTerms_trimStart]
  rfl

end rounds

/-! ### What a scan meets -/

/-- What is left of a search at the start of each round. -/
def roundStarts : List Char → List (List Char)
  | [] => []
  | c :: cs => (c :: cs) :: roundStarts (SearchRound.first (c :: cs)).rest
termination_by search => search.length
decreasing_by exact Nat.lt_succ_of_le (SearchRound.first_rest_suffix c cs).length_le

/-- The text starts with a `-` in front of a blank or the end. -/
def startsLoneSign : List Char → Bool
  | '-' :: after => after.head?.all isBlank
  | _ => false

/-- The text starts with a quote that no other quote closes. -/
def isOpenPhrase : List Char → Bool
  | '"' :: phrase => !phrase.contains '"'
  | _ => false

/-- The text starts with a phrase that is not closed, possibly with a `-` in front. -/
def startsOpenPhrase (rest : List Char) : Bool := isOpenPhrase (takeSign rest).2

/-- A search for something: it is not all blank, and every `-` in front is that of a term. -/
structure IsSearch (search : String) : Prop where
  not_blank : ∃ c ∈ search.toList, isBlank c = false
  no_loneSign : ∀ rest ∈ roundStarts (trimStart search.toList), startsLoneSign rest = false

/-- Every phrase in the search is closed. -/
def ClosesPhrases (search : String) : Prop :=
  ∀ rest ∈ roundStarts (trimStart search.toList), startsOpenPhrase rest = false

section scan
variable {c : Char} {cs body rest : List Char} {search : String}

/-- Something is left of a search for something. -/
theorem IsSearch.negatedTerms_ne_nil (h : IsSearch search) : negatedTerms search.toList ≠ [] := by
  obtain ⟨c, hmem, hblank⟩ := h.not_blank
  have hne : trimStart search.toList ≠ [] := by
    intro hnil
    have hall := List.dropWhile_eq_nil_iff.mp hnil c hmem
    rw [hblank] at hall
    cases hall
  obtain ⟨c, cs, hstart⟩ := List.exists_cons_of_ne_nil hne
  have hc := isBlank_of_trimStart_eq_cons hstart
  have hsign : startsLoneSign (c :: cs) = false :=
    h.no_loneSign _ (by rw [hstart, roundStarts]; exact List.mem_cons_self)
  have hterm : (SearchRound.first (c :: cs)).term ≠ [] := by
    rw [SearchRound.first]
    by_cases hminus : c = '-'
    · subst hminus
      cases cs with
      | nil => cases hsign
      | cons d cs => exact searchTerm_ne_nil hsign cs
    · rw [takeSign_of_ne hminus]
      exact searchTerm_ne_nil hc cs
  rw [← negatedTerms_trimStart, hstart, negatedTerms_cons, SearchRound.negated,
    if_neg (by simpa using hterm)]
  exact List.cons_ne_nil _ _

/-! ### Joining -/

theorem takeSign_append (hne : cs ≠ []) (rest : List Char) :
    takeSign (cs ++ rest) = ((takeSign cs).1, (takeSign cs).2 ++ rest) := by
  obtain ⟨c, cs, rfl⟩ := List.exists_cons_of_ne_nil hne
  by_cases hsign : c = '-'
  · subst hsign
    rfl
  · rw [List.cons_append, takeSign_of_ne hsign, takeSign_of_ne hsign]
    rfl

/-- The first term of a text stays what it is in front of a blank, unless it is a phrase that is not
closed. -/
theorem searchTerm_append (h : isOpenPhrase body = false) (hrest : EndsTerm rest) :
    searchTerm (body ++ rest) = ((searchTerm body).1, (searchTerm body).2 ++ rest) := by
  by_cases hquote : body.head? = some '"'
  · obtain ⟨phrase, rfl⟩ := List.head?_eq_some_iff.mp hquote
    have hmem : '"' ∈ phrase := by simpa [isOpenPhrase] using h
    obtain ⟨text, after, rfl, htext⟩ := List.eq_append_cons_of_mem hmem
    rw [List.cons_append, List.append_assoc, List.cons_append, searchTerm_closed htext,
      searchTerm_closed htext]
  · have hjoined : (body ++ rest).head? ≠ some '"' := by
      cases body with
      | nil =>
          intro hhead
          obtain ⟨after, rfl⟩ := List.head?_eq_some_iff.mp hhead
          have hblank : isBlank '"' = true := hrest
          exact absurd hblank (by decide)
      | cons c body => exact hquote
    obtain ⟨htake, hdrop⟩ := cutBlank_append hrest body
    rw [searchTerm_of_head hjoined, searchTerm_of_head hquote, htake, hdrop]

/-- Blanks at the start make no difference. -/
theorem negatedTerms_trimStart_append (cs rest : List Char) :
    negatedTerms (trimStart cs ++ rest) = negatedTerms (cs ++ rest) := by
  induction cs with
  | nil => rfl
  | cons c cs ih =>
      rw [trimStart_cons]
      split
      · next hc => rw [ih, List.cons_append, negatedTerms_blank hc]
      · rfl

/-- The rounds of a search that was joined are those of its parts. -/
theorem negatedTerms_append_space (h : ∀ start ∈ roundStarts cs, startsOpenPhrase start = false)
    (rest : List Char) :
    negatedTerms (cs ++ ' ' :: rest) = negatedTerms cs ++ negatedTerms rest := by
  fun_induction roundStarts cs with
  | case1 => rw [negatedTerms_nil, List.nil_append, negatedTerms_blank (by decide), List.nil_append]
  | case2 c cs ih =>
      obtain ⟨hstart, hlater⟩ := List.forall_mem_cons.mp h
      let after := (searchTerm (takeSign (c :: cs)).2).2
      have hfirst : SearchRound.first (c :: cs ++ ' ' :: rest) =
          { SearchRound.first (c :: cs) with rest := trimStart (after ++ ' ' :: rest) } := by
        have hspace : EndsTerm (' ' :: rest) := show isBlank ' ' = true by decide
        rw [SearchRound.first, takeSign_append (List.cons_ne_nil c cs)]
        dsimp only
        rw [searchTerm_append hstart hspace]
        rfl
      calc negatedTerms (c :: cs ++ ' ' :: rest)
          = (SearchRound.first (c :: cs)).negated ++
              negatedTerms (trimStart (after ++ ' ' :: rest)) := by
            rw [List.cons_append, negatedTerms_cons, ← List.cons_append, hfirst]
            rfl
        _ = (SearchRound.first (c :: cs)).negated ++
              negatedTerms (trimStart after ++ ' ' :: rest) := by
            rw [negatedTerms_trimStart, negatedTerms_trimStart_append]
        _ = (SearchRound.first (c :: cs)).negated ++
              (negatedTerms (trimStart after) ++ negatedTerms rest) :=
            congrArg (_ ++ ·) (ih hlater)
        _ = negatedTerms (c :: cs) ++ negatedTerms rest := by
            rw [negatedTerms_cons c cs, List.append_assoc]
            rfl

/-- The terms of a joined search are those of its parts, of which only the last may have a phrase
that is not closed. -/
theorem negatedTerms_intercalate {texts : List String}
    (h : ∀ text ∈ texts.dropLast, ClosesPhrases text) :
    negatedTerms (" ".intercalate texts).toList =
      texts.flatMap fun text => negatedTerms text.toList := by
  induction texts with
  | nil => exact negatedTerms_nil
  | cons first texts ih =>
      cases texts with
      | nil => rw [String.intercalate_singleton, List.flatMap_singleton]
      | cons second texts =>
          rw [List.dropLast_cons_cons] at h
          obtain ⟨hfirst, htexts⟩ := List.forall_mem_cons.mp h
          have hchars : (" ".intercalate (first :: second :: texts)).toList =
              first.toList ++ ' ' :: (" ".intercalate (second :: texts)).toList := by
            rw [String.intercalate_cons_cons, String.toList_append, String.toList_append,
              List.append_assoc]
            rfl
          rw [List.flatMap_cons, hchars, ← negatedTerms_trimStart_append,
            negatedTerms_append_space hfirst, negatedTerms_trimStart, ih htexts]

/-- Joining and negating is negating and joining, if something is left of every part. -/
theorem negateSearch_intercalate {texts : List String} (hsearch : ∀ text ∈ texts, IsSearch text)
    (hclosed : ∀ text ∈ texts.dropLast, ClosesPhrases text) :
    negateSearch (" ".intercalate texts) = " ".intercalate (texts.map negateSearch) := by
  have hne : ∀ text ∈ texts, (negatedTerms text.toList).map String.ofList ≠ [] := by
    intro text htext hnil
    exact (hsearch text htext).negatedTerms_ne_nil (List.map_eq_nil_iff.mp hnil)
  rw [negateSearch, negatedTerms_intercalate hclosed, List.map_flatMap]
  exact intercalate_flatMap hne

/-- A phrase that is not closed goes on into the search behind it. -/
example : negateSearch ("\"a" ++ " " ++ "b") = "-\"a b" := by cbv

theorem searches_negate (clauses : List Document) :
    searches ((clauses.filter fun clause => (searchOf? clause).isSome).map negate) =
      (searches clauses).map negateSearch := by
  induction clauses with
  | nil => rfl
  | cons clause clauses ih =>
      cases hsearch : searchOf? clause with
      | none =>
          have hcons : searches (clause :: clauses) = searches clauses :=
            List.filterMap_cons_none hsearch
          rw [List.filter_cons_of_neg (by simp [hsearch]), ih, hcons]
      | some text =>
          have hnegated : searchOf? (negate clause) = some (negateSearch text) := by
            rw [searchOf?_eq_some_iff.mp hsearch, negate_textSearch, searchOf?_textSearch]
          have hcons : searches (clause :: clauses) = text :: searches clauses :=
            List.filterMap_cons_some hsearch
          rw [List.filter_cons_of_pos (by simp [hsearch]), hcons, List.map_cons, List.map_cons,
            ← ih]
          exact List.filterMap_cons_some hnegated

/-- The text searches among the clauses can be negated before they are joined. -/
theorem negate_joinedSearch {clauses : List Document}
    (hsearch : ∀ text ∈ searches clauses, IsSearch text)
    (hclosed : ∀ text ∈ (searches clauses).dropLast, ClosesPhrases text) :
    negate (joinedSearch clauses) =
      joinedSearch ((clauses.filter fun clause => (searchOf? clause).isSome).map negate) := by
  rw [joinedSearch, joinedSearch, negate_textSearch, negateSearch_intercalate hsearch hclosed,
    searches_negate]

end scan

/-- **Negation is total and can be done before joining.**  At every place of a search the text
behind the sign can be cut where the term ends, and less is left than there was, so the rounds come to
an end within as many as there are characters.  Two searches for something can be joined before or
after they are negated if the phrases of the first are closed, and so can the text searches among
clauses if the phrases of all but the last are. -/
theorem negateSearch_distributes :
    (∀ (c : Char) (cs : List Char),
      (String.Pos.Raw.mk (termEnd (takeSign (c :: cs)).2)).IsValid
        (String.ofList (takeSign (c :: cs)).2) ∧
      SearchRound.take? (c :: cs) = some (SearchRound.first (c :: cs)) ∧
      (SearchRound.first (c :: cs)).rest <:+ c :: cs ∧
      (SearchRound.first (c :: cs)).rest.length < (c :: cs).length) ∧
    (∀ (search : String) (rounds : Nat), search.length ≤ rounds →
      negateSearchIn? rounds search = some (negateSearch search)) ∧
    (∀ s t : String, IsSearch s → IsSearch t → ClosesPhrases s →
      negateSearch (s ++ " " ++ t) = negateSearch s ++ " " ++ negateSearch t) ∧
    ∀ clauses : List Document, (∀ text ∈ searches clauses, IsSearch text) →
      (∀ text ∈ (searches clauses).dropLast, ClosesPhrases text) →
      negate (joinedSearch clauses) =
        joinedSearch ((clauses.filter fun clause => (searchOf? clause).isSome).map negate) := by
  refine ⟨fun c cs => ⟨?_, SearchRound.take?_eq _, ?_⟩, fun search rounds => negateSearchIn?_eq,
    fun s t hs ht hclosed => ?_, fun clauses => negate_joinedSearch⟩
  · rw [← cutAt?_isSome_iff, cutAt?_termEnd]
    rfl
  · have hsuffix := SearchRound.first_rest_suffix c cs
    exact ⟨hsuffix.trans (List.suffix_cons c cs), Nat.lt_succ_of_le hsuffix.length_le⟩
  · have hjoin : negateSearch (" ".intercalate [s, t]) =
        " ".intercalate [negateSearch s, negateSearch t] :=
      negateSearch_intercalate (by simpa using ⟨hs, ht⟩) (by simpa using hclosed)
    simpa only [String.intercalate_cons_cons, String.intercalate_singleton] using hjoin

/-- A quote inside a word, a wide blank, an excluded phrase and a double sign, in front of a phrase
that is not closed. -/
theorem negateSearch_distributes_open :
    ∃ s t : String, s = "a\"b\u3000-\"ä y\" --c" ∧ t = "-d \"e f" ∧
      IsSearch s ∧ IsSearch t ∧ ClosesPhrases s ∧ s.length ≤ 14 ∧
      negateSearchIn? 14 s = some "-a\"b \"ä y\" -c" ∧
      negateSearch (s ++ " " ++ t) = "-a\"b \"ä y\" -c d -\"e f" ∧
      negate (joinedSearch [textSearch s, Document.entry "f" (.bool true), textSearch t]) =
        textSearch "-a\"b \"ä y\" -c d -\"e f" := by
  have hs : roundStarts (trimStart "a\"b\u3000-\"ä y\" --c".toList) =
      ["a\"b\u3000-\"ä y\" --c".toList, "-\"ä y\" --c".toList, "--c".toList] := by
    cbv
  have ht : roundStarts (trimStart "-d \"e f".toList) =
      ["-d \"e f".toList, "\"e f".toList] := by
    cbv
  have hsearch : IsSearch "a\"b\u3000-\"ä y\" --c" :=
    ⟨⟨'a', by simp, by decide⟩, by rw [hs]; decide⟩
  have hsearch' : IsSearch "-d \"e f" := ⟨⟨'d', by simp, by decide⟩, by rw [ht]; decide⟩
  have hclosed : ClosesPhrases "a\"b\u3000-\"ä y\" --c" := by
    rw [ClosesPhrases, hs]
    decide
  have hlength : "a\"b\u3000-\"ä y\" --c".length ≤ 14 := by cbv
  have hnegated : negateSearch "a\"b\u3000-\"ä y\" --c" = "-a\"b \"ä y\" -c" := by cbv
  have hnegated' : negateSearch "-d \"e f" = "d -\"e f" := by cbv
  have hsearches : searches [textSearch "a\"b\u3000-\"ä y\" --c", Document.entry "f" (.bool true),
      textSearch "-d \"e f"] = ["a\"b\u3000-\"ä y\" --c", "-d \"e f"] := by
    cbv
  obtain ⟨-, hrounds, hjoin, hclauses⟩ := negateSearch_distributes
  refine ⟨_, _, rfl, rfl, hsearch, hsearch', hclosed, hlength, ?_, ?_, ?_⟩
  · rw [hrounds _ _ hlength, hnegated]
  · rw [hjoin _ _ hsearch hsearch' hclosed, hnegated, hnegated']
    rfl
  · rw [hclauses]
    · cbv
    · rw [hsearches]
      simpa using ⟨hsearch, hsearch'⟩
    · rw [hsearches]
      simpa using hclosed

end QueryFilter
