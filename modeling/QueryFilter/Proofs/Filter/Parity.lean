import Mathlib
import QueryFilter.Proofs.Filter.Output

/-! # Negated text searches

A query of free texts alone compiles into one text search, whatever conjunctions, disjunctions,
negations and groups it is made of.  The search has the words and phrases of the query from left to
right, and a `-` is put in front of a term, or taken away, if an odd number of `NOT`s stand around
it (`Query.compile_texts`).

Each `NOT` takes the search of its operand apart again.  So what carries the proof is that the terms
of a search that was joined from terms are those terms (`negateSearch_join`): words end at blanks,
phrases at their closing quote, and the `-` in front is the only sign. -/

namespace QueryFilter

/-! ### Terms of a search -/

/-- Puts a `-` in front of a term, or takes it away. -/
def toggle : List Char → List Char
  | '-' :: body => body
  | body => '-' :: body

/-- Puts a `-` in front of a term, or takes it away. -/
def toggleTerm (term : String) : String := String.ofList (toggle term.toList)

/-- A word without a sign: it has no blank in it and starts like neither a sign nor a phrase. -/
structure IsPlainWord (cs : List Char) : Prop where
  nonempty : cs ≠ []
  noBlank : ∀ c ∈ cs, isBlank c = false
  noSign : cs.head? ≠ some '-'
  noQuote : cs.head? ≠ some '"'

instance (cs : List Char) : Decidable (IsPlainWord cs) :=
  decidable_of_iff
    (cs ≠ [] ∧ cs.all (!isBlank ·) = true ∧ cs.head? ≠ some '-' ∧ cs.head? ≠ some '"')
    ⟨fun ⟨hne, hblank, hsign, hquote⟩ => ⟨hne, by simpa using hblank, hsign, hquote⟩,
      fun h => ⟨h.nonempty, by simpa using h.noBlank, h.noSign, h.noQuote⟩⟩

/-- A word, possibly with a single `-` in front of it. -/
def IsSearchWord (word : String) : Prop :=
  ∃ body, IsPlainWord body ∧ (word.toList = body ∨ word.toList = '-' :: body)

/-- A text that a search can look for: words, or a phrase without a double quote in it. -/
def FreeText.IsSearchable : FreeText → Prop
  | .words ws => ws ≠ [] ∧ ∀ word ∈ ws, IsSearchWord word
  | .quoted _ text => '"' ∉ text.toList
  | .regex _ => False

/-- The words of a text, or its phrase in double quotes. -/
def FreeText.terms : FreeText → List String
  | .words ws => ws
  | .quoted _ text => [Quote.double.around text]
  | .regex text => [stripSlashes text]

/-- What a term looks for, without the sign: a word, or a phrase in double quotes. -/
inductive IsTermBody : List Char → Prop
  | word {cs : List Char} (h : IsPlainWord cs) : IsTermBody cs
  | phrase {text : List Char} (h : '"' ∉ text) : IsTermBody ('"' :: (text ++ ['"']))

/-- A term of a search: something to look for, possibly with a `-` in front of it. -/
inductive IsTerm : List Char → Prop
  | wanted {body : List Char} (h : IsTermBody body) : IsTerm body
  | excluded {body : List Char} (h : IsTermBody body) : IsTerm ('-' :: body)

section terms
variable {body rest term : List Char}

theorem IsTermBody.exists_cons (h : IsTermBody body) :
    ∃ c cs, body = c :: cs ∧ isBlank c = false ∧ c ≠ '-' := by
  cases h with
  | word h =>
      obtain ⟨c, cs, rfl⟩ := List.exists_cons_of_ne_nil h.nonempty
      exact ⟨c, cs, rfl, h.noBlank c (by simp), by simpa using h.noSign⟩
  | phrase h => exact ⟨_, _, rfl, by decide, by decide⟩

theorem toggle_body (h : IsTermBody body) : toggle body = '-' :: body := by
  obtain ⟨c, cs, rfl, -, hc⟩ := h.exists_cons
  rw [toggle]
  rintro tail heq
  exact hc (List.cons.inj heq).1

theorem IsTerm.toggle (h : IsTerm term) : IsTerm (toggle term) := by
  cases h with
  | wanted h =>
      rw [toggle_body h]
      exact .excluded h
  | excluded h => exact .wanted h

theorem IsTerm.toggle_toggle (h : IsTerm term) :
    QueryFilter.toggle (QueryFilter.toggle term) = term := by
  cases h with
  | wanted h =>
      rw [toggle_body h]
      rfl
  | excluded h => exact toggle_body h

theorem IsSearchWord.isTerm {word : String} (h : IsSearchWord word) : IsTerm word.toList := by
  obtain ⟨body, hbody, h | h⟩ := h
  · rw [h]
    exact .wanted (.word hbody)
  · rw [h]
    exact .excluded (.word hbody)

/-- The terms of a text that can be searched for are terms. -/
theorem FreeText.IsSearchable.isTerm {text : FreeText} (h : text.IsSearchable) :
    ∀ term ∈ text.terms, IsTerm term.toList := by
  intro term hterm
  cases text with
  | words ws => exact (h.2 term hterm).isTerm
  | quoted quote content =>
      obtain rfl := List.mem_singleton.mp hterm
      have hchars : (Quote.double.around content).toList = '"' :: (content.toList ++ ['"']) := by
        simp [Quote.around, Quote.mark]
      rw [hchars]
      exact .wanted (.phrase h)
  | regex pattern => exact h.elim

theorem FreeText.IsSearchable.terms_ne_nil {text : FreeText} (h : text.IsSearchable) :
    text.terms ≠ [] := by
  cases text with
  | words ws => exact h.1
  | quoted quote content => exact List.cons_ne_nil _ _
  | regex pattern => exact h.elim

/-! ### Taking a search apart -/

/-- What can follow a term in a search: nothing, or a blank. -/
def EndsTerm : List Char → Prop
  | [] => True
  | c :: _ => isBlank c = true

/-- A text that starts with no quote has a word in front, up to a blank. -/
theorem searchTerm_of_head (h : body.head? ≠ some '"') :
    searchTerm body = (body.takeWhile (!isBlank ·), body.dropWhile (!isBlank ·)) := by
  rw [searchTerm]
  rintro phrase rfl
  exact h rfl

/-- The first blank of a text is the one it has in front of another text, if it has one. -/
theorem cutBlank_append (hrest : EndsTerm rest) (body : List Char) :
    (body ++ rest).takeWhile (!isBlank ·) = body.takeWhile (!isBlank ·) ∧
      (body ++ rest).dropWhile (!isBlank ·) = body.dropWhile (!isBlank ·) ++ rest := by
  induction body with
  | nil =>
      cases rest with
      | nil => exact ⟨rfl, rfl⟩
      | cons c rest =>
          have hc : isBlank c = true := hrest
          simp [hc]
  | cons c body ih => cases hc : isBlank c <;> simp [hc, ih.1, ih.2]

theorem searchTerm_word (h : IsPlainWord body) (hrest : EndsTerm rest) :
    searchTerm (body ++ rest) = (body, rest) := by
  have hbody : ∀ c ∈ body, (!isBlank c) = true := by
    intro c hc
    rw [h.noBlank c hc]
    rfl
  have hhead : (body ++ rest).head? ≠ some '"' := by
    obtain ⟨c, tail, rfl⟩ := List.exists_cons_of_ne_nil h.nonempty
    exact h.noQuote
  obtain ⟨htake, hdrop⟩ := cutBlank_append hrest body
  rw [searchTerm_of_head hhead, htake, hdrop, List.takeWhile_eq_self_iff.mpr hbody,
    List.dropWhile_eq_nil_iff.mpr hbody, List.nil_append]

theorem ne_quote_of_not_mem {text : List Char} (h : '"' ∉ text) :
    ∀ c ∈ text, (c != '"') = true := by
  intro c hc
  rw [bne_iff_ne]
  rintro rfl
  exact h hc

theorem searchTerm_phrase {text : List Char} (h : '"' ∉ text) (rest : List Char) :
    searchTerm ('"' :: (text ++ ['"']) ++ rest) = ('"' :: (text ++ ['"']), rest) := by
  have htext := ne_quote_of_not_mem h
  have hsplit : text ++ ['"'] ++ rest = text ++ '"' :: rest := by simp
  rw [List.cons_append, hsplit, searchTerm, List.dropWhile_append_of_pos htext,
    List.takeWhile_append_of_pos htext]
  simp

/-- The term that a search starts with ends where it should. -/
theorem searchTerm_body (h : IsTermBody body) (hrest : EndsTerm rest) :
    searchTerm (body ++ rest) = (body, rest) := by
  cases h with
  | word h => exact searchTerm_word h hrest
  | phrase h => exact searchTerm_phrase h rest

theorem negatedTerms_eq (cs : List Char) :
    negatedTerms cs =
      match trimStart cs with
      | [] => []
      | c :: tail =>
        if c = '-' then
          if (searchTerm tail).1.isEmpty then negatedTerms (searchTerm tail).2
          else (searchTerm tail).1 :: negatedTerms (searchTerm tail).2
        else ('-' :: (searchTerm (c :: tail)).1) :: negatedTerms (searchTerm (c :: tail)).2 := by
  rw [negatedTerms]
  split
  · next h => rw [h]
  · next c tail h => simp only [h]

theorem negatedTerms_nil : negatedTerms [] = [] := by
  rw [negatedTerms_eq]
  rfl

theorem trimStart_cons_of_not_blank {c : Char} (hc : isBlank c = false) (cs : List Char) :
    trimStart (c :: cs) = c :: cs := by
  rw [trimStart_cons, hc]
  rfl

/-- The first term of a search is negated, and then the others. -/
theorem negatedTerms_term (h : IsTerm term) (hrest : EndsTerm rest) :
    negatedTerms (term ++ rest) = toggle term :: negatedTerms rest := by
  rw [negatedTerms_eq]
  cases h with
  | wanted h =>
      obtain ⟨c, cs, hcons, hblank, hsign⟩ := h.exists_cons
      have htrim : trimStart (term ++ rest) = c :: (cs ++ rest) := by
        rw [hcons, List.cons_append, trimStart_cons_of_not_blank hblank]
      have hread : searchTerm (c :: (cs ++ rest)) = (term, rest) := by
        rw [← List.cons_append, ← hcons]
        exact searchTerm_body h hrest
      rw [htrim, toggle_body h]
      simp only [if_neg hsign, hread]
  | @excluded body h =>
      have htrim : trimStart ('-' :: body ++ rest) = '-' :: (body ++ rest) :=
        trimStart_cons_of_not_blank (by decide) _
      obtain ⟨c, cs, rfl, -⟩ := h.exists_cons
      have hread := searchTerm_body h hrest
      rw [htrim]
      simp only [hread]
      rfl

theorem negatedTerms_blank {c : Char} (hc : isBlank c = true) (cs : List Char) :
    negatedTerms (c :: cs) = negatedTerms cs := by
  rw [negatedTerms_eq, negatedTerms_eq cs, trimStart_cons, hc]
  rfl

/-- Taking a joined search apart gives its terms back. -/
theorem negatedTerms_join {terms : List (List Char)} (h : ∀ term ∈ terms, IsTerm term) :
    negatedTerms ([' '].intercalate terms) = terms.map toggle := by
  induction terms with
  | nil => exact negatedTerms_nil
  | cons first terms ih =>
      obtain ⟨hfirst, hterms⟩ := List.forall_mem_cons.mp h
      cases terms with
      | nil =>
          have hlast : negatedTerms (first ++ []) = toggle first :: negatedTerms [] :=
            negatedTerms_term hfirst trivial
          rw [List.append_nil] at hlast
          rw [List.intercalate_singleton, hlast, negatedTerms_nil]
          rfl
      | cons second terms =>
          rw [List.intercalate_cons_cons, List.append_assoc]
          have hspace : EndsTerm ([' '] ++ [' '].intercalate (second :: terms)) := by
            show isBlank ' ' = true
            decide
          rw [negatedTerms_term hfirst hspace, List.singleton_append,
            negatedTerms_blank (by decide), ih hterms]
          rfl

end terms

/-- **The negation of a joined search** joins the negated terms. -/
theorem negateSearch_join {terms : List String} (h : ∀ term ∈ terms, IsTerm term.toList) :
    negateSearch (" ".intercalate terms) = " ".intercalate (terms.map toggleTerm) := by
  have hchars : (" ".intercalate terms).toList = [' '].intercalate (terms.map String.toList) :=
    String.toList_intercalate
  rw [negateSearch, hchars, negatedTerms_join (List.forall_mem_map.mpr h), List.map_map,
    List.map_map]
  rfl

/-! ### Joining searches -/

section join
variable {α : Type} {f : α → List String} {l : List α} {sep : String}

/-- Lists that are joined one by one and then with each other are joined all at once. -/
theorem intercalate_flatMap (h : ∀ a ∈ l, f a ≠ []) :
    sep.intercalate (l.flatMap f) = sep.intercalate (l.map fun a => sep.intercalate (f a)) := by
  induction l with
  | nil => rfl
  | cons first l ih =>
      obtain ⟨hfirst, hl⟩ := List.forall_mem_cons.mp h
      cases l with
      | nil => simp
      | cons second l =>
          have hrest : (second :: l).flatMap f ≠ [] := by
            have hsecond : f second ≠ [] := hl second (by simp)
            simp [hsecond]
          rw [List.flatMap_cons, String.intercalate_append_of_ne_nil hfirst hrest, ih hl,
            List.map_cons, List.map_cons, List.map_cons, String.intercalate_cons_cons]

theorem searches_map_textSearch (texts : List String) :
    searches (texts.map textSearch) = texts := by
  induction texts with
  | nil => rfl
  | cons text texts ih =>
      rw [List.map_cons, searches, List.filterMap_cons, searchOf?_textSearch]
      exact congrArg (text :: ·) ih

theorem joinedSearch_map_textSearch (texts : List String) :
    joinedSearch (texts.map textSearch) = textSearch (" ".intercalate texts) := by
  rw [joinedSearch, searches_map_textSearch]

/-- A conjunction of text searches is one search. -/
theorem conjunction_textSearches (texts : List String) (h : texts ≠ []) :
    conjunction (texts.map textSearch) = textSearch (" ".intercalate texts) := by
  have hjoin : joinSearches (texts.map textSearch) = [joinedSearch (texts.map textSearch)] :=
    joinSearches_of_isSome (by simpa using h) (by simp)
  rw [conjunction, hjoin, joinedSearch_map_textSearch]

/-- A disjunction of text searches is one search. -/
theorem disjunction_textSearches (texts : List String) (h : texts ≠ []) :
    disjunction (texts.map textSearch) = textSearch (" ".intercalate texts) := by
  match texts, h with
  | [text], _ => rw [String.intercalate_singleton]; rfl
  | first :: second :: rest, _ =>
      rw [disjunction]
      · rw [joinedSearch_map_textSearch, if_pos]
        simp
      · simp

/-- A conjunction of searches for some terms each is the search for all the terms. -/
theorem conjunction_searches (hne : l ≠ []) (h : ∀ a ∈ l, f a ≠ []) :
    conjunction (l.map fun a => textSearch (" ".intercalate (f a))) =
      textSearch (" ".intercalate (l.flatMap f)) := by
  have hjoin := conjunction_textSearches (l.map fun a => " ".intercalate (f a)) (by simpa using hne)
  rw [List.map_map] at hjoin
  rw [intercalate_flatMap h]
  exact hjoin

/-- And so is a disjunction. -/
theorem disjunction_searches (hne : l ≠ []) (h : ∀ a ∈ l, f a ≠ []) :
    disjunction (l.map fun a => textSearch (" ".intercalate (f a))) =
      textSearch (" ".intercalate (l.flatMap f)) := by
  have hjoin := disjunction_textSearches (l.map fun a => " ".intercalate (f a)) (by simpa using hne)
  rw [List.map_map] at hjoin
  rw [intercalate_flatMap h]
  exact hjoin

end join

/-! ### The terms of a query -/

mutual

/-- The free texts of the operand from left to right, each with the number of `NOT`s around it. -/
def Operand.texts (nots : Nat) : Operand → List (Nat × FreeText)
  | .field _ _ => []
  | .text text => [(nots, text)]
  | .not operand => operand.texts (nots + 1)
  | .group branches => Query.texts nots branches

/-- The free texts of the operands. -/
def Branch.texts (nots : Nat) : List Operand → List (Nat × FreeText)
  | [] => []
  | operand :: operands => operand.texts nots ++ Branch.texts nots operands

/-- The free texts of the branches. -/
def Query.texts (nots : Nat) : List (List Operand) → List (Nat × FreeText)
  | [] => []
  | branch :: branches => Branch.texts nots branch ++ Query.texts nots branches

end

/-- The terms of a text, toggled if there is an odd number of `NOT`s around it. -/
def signedTerms (leaf : Nat × FreeText) : List String :=
  if leaf.1 % 2 = 1 then leaf.2.terms.map toggleTerm else leaf.2.terms

/-- The terms of the operand, inside a number of `NOT`s. -/
def Operand.terms (nots : Nat) (operand : Operand) : List String :=
  (operand.texts nots).flatMap signedTerms

theorem Branch.texts_eq_flatMap (nots : Nat) (branch : Branch) :
    Branch.texts nots branch = branch.flatMap (Operand.texts nots) := by
  induction branch with
  | nil => rfl
  | cons operand operands ih => rw [Branch.texts, ih, List.flatMap_cons]

theorem Query.texts_eq_flatMap (nots : Nat) (query : Query) :
    Query.texts nots query = query.flatMap fun branch => branch.flatMap (Operand.texts nots) := by
  induction query with
  | nil => rfl
  | cons branch branches ih => rw [Query.texts, ih, Branch.texts_eq_flatMap, List.flatMap_cons]

theorem Operand.terms_text (nots : Nat) (text : FreeText) :
    (Operand.text text).terms nots = signedTerms (nots, text) := by
  rw [Operand.terms, Operand.texts, List.flatMap_singleton]

theorem Operand.terms_not (nots : Nat) (operand : Operand) :
    (Operand.not operand).terms nots = operand.terms (nots + 1) := by
  rw [Operand.terms, Operand.texts, Operand.terms]

theorem Operand.terms_group (nots : Nat) (branches : List (List Operand)) :
    (Operand.group branches).terms nots =
      branches.flatMap fun branch => branch.flatMap (Operand.terms nots) := by
  rw [Operand.terms, Operand.texts, Query.texts_eq_flatMap, List.flatMap_assoc]
  congr 1
  funext branch
  exact List.flatMap_assoc

/-! ### Parity -/

/-- No fields, only free texts that can be searched for, and no empty list. -/
abbrev Operand.IsSearchable (operand : Operand) : Prop :=
  operand.Proper (fun _ _ => False) FreeText.IsSearchable

section parity
variable {nots : Nat} {operand : Operand}

theorem signedTerms_isTerm {text : FreeText} (h : text.IsSearchable) :
    ∀ term ∈ signedTerms (nots, text), IsTerm term.toList := by
  have hterms := h.isTerm
  intro term hterm
  rw [signedTerms] at hterm
  split at hterm
  · obtain ⟨plain, hplain, rfl⟩ := List.mem_map.mp hterm
    rw [toggleTerm, String.toList_ofList]
    exact (hterms plain hplain).toggle
  · exact hterms term hterm

/-- One more `NOT` toggles the terms of a text. -/
theorem signedTerms_succ {text : FreeText} (h : text.IsSearchable) :
    signedTerms (nots + 1, text) = (signedTerms (nots, text)).map toggleTerm := by
  have hterms := h.isTerm
  unfold signedTerms
  dsimp only
  rcases Nat.mod_two_eq_zero_or_one nots with heven | hodd
  · rw [if_pos (by omega), if_neg (by omega)]
  · rw [if_neg (by omega), if_pos hodd, List.map_map]
    have htwice : ∀ term ∈ text.terms, (toggleTerm ∘ toggleTerm) term = term := by
      intro term hterm
      show toggleTerm (toggleTerm term) = term
      rw [toggleTerm, toggleTerm, String.toList_ofList, (hterms term hterm).toggle_toggle,
        String.ofList_toList]
    rw [List.map_congr_left htwice, List.map_id']

theorem Operand.IsSearchable.isTerm (h : operand.IsSearchable) :
    ∀ term ∈ operand.terms nots, IsTerm term.toList := by
  induction h generalizing nots with
  | field h => exact h.elim
  | text h =>
      rw [Operand.terms_text]
      exact signedTerms_isTerm h
  | not _ ih =>
      rw [Operand.terms_not]
      exact ih
  | group _ _ _ ih =>
      rw [Operand.terms_group]
      intro term hterm
      obtain ⟨branch, hbranch, hterm⟩ := List.mem_flatMap.mp hterm
      obtain ⟨operand, hoperand, hterm⟩ := List.mem_flatMap.mp hterm
      exact ih branch hbranch operand hoperand term hterm

theorem Operand.IsSearchable.terms_ne_nil (h : operand.IsSearchable) :
    operand.terms nots ≠ [] := by
  induction h generalizing nots with
  | field h => exact h.elim
  | text h =>
      rw [Operand.terms_text, signedTerms]
      split
      · simpa using h.terms_ne_nil
      · exact h.terms_ne_nil
  | not _ ih =>
      rw [Operand.terms_not]
      exact ih
  | group some_branch some_operand _ ih =>
      obtain ⟨branch, hbranch⟩ := List.exists_mem_of_ne_nil _ some_branch
      obtain ⟨operand, hoperand⟩ := List.exists_mem_of_ne_nil _ (some_operand branch hbranch)
      rw [Operand.terms_group]
      intro hnil
      have hinner := List.flatMap_eq_nil_iff.mp hnil branch hbranch
      exact ih branch hbranch operand hoperand (List.flatMap_eq_nil_iff.mp hinner operand hoperand)

/-- One more `NOT` toggles the terms of an operand. -/
theorem Operand.IsSearchable.terms_succ (h : operand.IsSearchable) :
    operand.terms (nots + 1) = (operand.terms nots).map toggleTerm := by
  induction h generalizing nots with
  | field h => exact h.elim
  | text h => rw [Operand.terms_text, Operand.terms_text, signedTerms_succ h]
  | not _ ih => rw [Operand.terms_not, Operand.terms_not, ih]
  | group _ _ _ ih =>
      rw [Operand.terms_group, Operand.terms_group, List.map_flatMap]
      refine List.flatMap_congr fun branch hbranch => ?_
      rw [List.map_flatMap]
      exact List.flatMap_congr fun operand hoperand => ih branch hbranch operand hoperand

end parity

/-! ### Compiling free texts -/

section compile
variable {options : Options} {query : Query}

theorem Branch.clauses_of_forall {f : Operand → Document} {branch : Branch}
    (h : ∀ operand ∈ branch, operand.clause options = .ok (f operand)) :
    Branch.clauses options branch = .ok (branch.map f) := by
  induction branch with
  | nil => rfl
  | cons operand branch ih =>
      obtain ⟨hoperand, hbranch⟩ := List.forall_mem_cons.mp h
      rw [Branch.clauses, hoperand, ih hbranch]
      rfl

theorem Query.clauses_of_forall {f : Branch → List Document}
    (h : ∀ branch ∈ query, Branch.clauses options branch = .ok (f branch)) :
    Query.clauses options query = .ok (query.map fun branch => conjunction (f branch)) := by
  induction query with
  | nil => rfl
  | cons branch query ih =>
      obtain ⟨hbranch, hquery⟩ := List.forall_mem_cons.mp h
      rw [Query.clauses, hbranch, ih hquery]
      rfl

/-- The clause of an operand made of free texts is one text search. -/
theorem Operand.IsSearchable.clause_eq (hfields : options.defaultFields = []) {operand : Operand}
    (h : operand.IsSearchable) :
    operand.clause options = .ok (textSearch (" ".intercalate (operand.terms 0))) := by
  induction h with
  | field h => exact h.elim
  | @text text h =>
      have hsearch : text.search = " ".intercalate text.terms := by
        cases text with
        | words ws => rfl
        | quoted quote content => exact String.intercalate_singleton.symm
        | regex pattern => exact h.elim
      rw [Operand.clause, Options.textClause, hfields, hsearch, Operand.terms_text]
      rfl
  | @not operand h ih =>
      have hnot : ∀ path value, operand ≠ .field path value := by
        rintro path value rfl
        cases h with
        | field h => exact h
      rw [Operand.clause_not hnot, ih, Operand.terms_not, Operand.IsSearchable.terms_succ h]
      show Except.ok (negate _) = _
      rw [negate_textSearch, negateSearch_join (Operand.IsSearchable.isTerm h)]
  | @group branches some_branch some_operand h ih =>
      have hoperand : ∀ branch ∈ branches, ∀ operand ∈ branch, operand.terms 0 ≠ [] :=
        fun branch hbranch operand hoperand =>
          Operand.IsSearchable.terms_ne_nil (h branch hbranch operand hoperand)
      have hbranch : ∀ branch ∈ branches, branch.flatMap (Operand.terms 0) ≠ [] := by
        intro branch hbranch hnil
        obtain ⟨operand, ho⟩ := List.exists_mem_of_ne_nil _ (some_operand branch hbranch)
        exact hoperand branch hbranch operand ho (List.flatMap_eq_nil_iff.mp hnil operand ho)
      have hclauses := Query.clauses_of_forall fun branch hbranch =>
        Branch.clauses_of_forall (ih branch hbranch)
      have hconjunction : ∀ branch ∈ branches,
          conjunction (branch.map fun operand => textSearch (" ".intercalate (operand.terms 0))) =
            textSearch (" ".intercalate (branch.flatMap (Operand.terms 0))) :=
        fun branch hbranch =>
          conjunction_searches (some_operand branch hbranch) (hoperand branch hbranch)
      rw [Operand.clause, hclauses, List.map_congr_left hconjunction, Operand.terms_group]
      exact congrArg Except.ok (disjunction_searches some_branch hbranch)

/-- **The parity of negations.**  Without default fields a query of free texts compiles into the
text search for its terms, from left to right, in which those inside an odd number of `NOT`s are
toggled. -/
theorem Query.compile_texts (hfields : options.defaultFields = [])
    (h : query.Proper (fun _ _ => False) FreeText.IsSearchable) :
    query.compile options =
      .ok (textSearch (" ".intercalate ((Query.texts 0 query).flatMap signedTerms))) := by
  have hgroup : (Operand.group query).IsSearchable := Operand.proper_group_iff.mpr h
  have hterms : (Operand.group query).terms 0 = (Query.texts 0 query).flatMap signedTerms := by
    rw [Operand.terms, Operand.texts]
  rw [Query.compile_eq, hgroup.clause_eq hfields, hterms]

/-- Three `NOT`s stand around `-a`, two around the phrase, and one around the other words. -/
theorem Query.compile_texts_nested :
    ∃ query : Query,
      query = [[.not (.group [[.text (.words ["b", "it's"]),
        .not (.group [[.not (.text (.words ["-a"]))], [.text (.quoted .single "x -y")]])]])]] ∧
      query.Proper (fun _ _ => False) FreeText.IsSearchable ∧
      query.compile {} = .ok (textSearch "-b -it's a \"x -y\"") := by
  have ha : IsSearchWord "-a" := ⟨['a'], by decide, .inr (by simp)⟩
  have hb : IsSearchWord "b" := ⟨['b'], by decide, .inl (by simp)⟩
  have hit : IsSearchWord "it's" := ⟨['i', 't', '\'', 's'], by decide, .inl (by simp)⟩
  have hwords : (Operand.text (.words ["b", "it's"])).IsSearchable :=
    .text ⟨by simp, by simpa using ⟨hb, hit⟩⟩
  have hexcluded : (Operand.not (.text (.words ["-a"]))).IsSearchable :=
    .not (.text ⟨by simp, by simpa using ha⟩)
  have hphrase : (Operand.text (.quoted .single "x -y")).IsSearchable :=
    .text (by simp [FreeText.IsSearchable])
  have hproper : Query.Proper (fun _ _ => False) FreeText.IsSearchable
      [[.not (.group [[.text (.words ["b", "it's"]),
        .not (.group [[.not (.text (.words ["-a"]))], [.text (.quoted .single "x -y")]])]])]] := by
    refine ⟨by simp, List.forall_mem_singleton.mpr ⟨by simp, List.forall_mem_singleton.mpr ?_⟩⟩
    refine .not (.group (by simp) (by simp) (List.forall_mem_singleton.mpr ?_))
    have hinner : (Operand.not (.group [[.not (.text (.words ["-a"]))],
        [.text (.quoted .single "x -y")]])).IsSearchable :=
      .not (.group (by simp) (by simp) (by simpa using ⟨hexcluded, hphrase⟩))
    simpa using ⟨hwords, hinner⟩
  refine ⟨_, rfl, hproper, (Query.compile_texts rfl hproper).trans ?_⟩
  cbv

end compile

end QueryFilter
