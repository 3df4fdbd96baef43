import QueryFilter.Proofs.Filter.Conjunction

/-! # What a conjunction makes of its clauses

A conjunction loses nothing, doubles nothing and wraps nothing that it could merge
(`conjunction_merges`).  First all text searches become one (`SearchesJoined`).  If then all clauses
are simple and no two have a field in common, the conjunction is the document of their entries.
Otherwise it is an `$and` of the merged document, in the place of the first simple clause, and of the
clauses that could not be merged (`Separates`). -/

namespace QueryFilter

open Document

/-! ### Joining text searches -/

/-- The second list has one search for all texts in the place of the first text search, and no other
text search. -/
inductive SearchesJoined : List Document → List Document → Prop
  | none {clauses : List Document} (h : ∀ clause ∈ clauses, searchOf? clause = none) :
      SearchesJoined clauses clauses
  | some {before after : List Document} {search : String}
      (h : ∀ clause ∈ before, searchOf? clause = none) :
      SearchesJoined (before ++ textSearch search :: after)
        (before ++ textSearch (" ".intercalate (search :: after.filterMap searchOf?)) ::
          after.filter fun clause => (searchOf? clause).isNone)

theorem placeSearch_append (joined : Document) {before : List Document}
    (h : ∀ clause ∈ before, searchOf? clause = none) (clauses : List Document) :
    placeSearch joined (before ++ clauses) = before ++ placeSearch joined clauses := by
  induction before with
  | nil => rfl
  | cons clause before ih =>
      obtain ⟨hclause, hbefore⟩ := List.forall_mem_cons.mp h
      rw [List.cons_append, placeSearch, hclause, ih hbefore]
      rfl

theorem searchesJoined_joinSearches (clauses : List Document) :
    SearchesJoined clauses (joinSearches clauses) := by
  cases hfirst : clauses.find? fun clause => (searchOf? clause).isSome with
  | none =>
      have hnone : ∀ clause ∈ clauses, searchOf? clause = none := by
        simpa using List.find?_eq_none.mp hfirst
      rw [joinSearches, placeSearch_of_none hnone]
      exact .none hnone
  | some first =>
      obtain ⟨hsome, before, after, rfl, hbefore⟩ := List.find?_eq_some_iff_append.mp hfirst
      obtain ⟨search, hsearch⟩ := Option.isSome_iff_exists.mp hsome
      obtain rfl := searchOf?_eq_some_iff.mp hsearch
      have hnone : ∀ clause ∈ before, searchOf? clause = none := by simpa using hbefore
      have hsearches : searches (before ++ textSearch search :: after) =
          search :: after.filterMap searchOf? := by
        rw [searches, List.filterMap_append, List.filterMap_eq_nil_iff.mpr hnone,
          List.filterMap_cons, searchOf?_textSearch, List.nil_append]
      rw [joinSearches, joinedSearch, hsearches, placeSearch_append _ hnone, placeSearch,
        if_pos hsome]
      exact .some hnone

/-! ### Where the merged document stands -/

section gather
variable {merged : Document} {clauses : List Document}

/-- Before the first simple clause nothing is merged, and the merged document takes its place. -/
theorem gather_append_cons {before after : List Document} {first : Document}
    (hbefore : ∀ clause ∈ before, isSimple clause = false) (hfirst : isSimple first = true) :
    gather [] (before ++ first :: after) =
      ((gather first after).1,
        before.map some ++ none :: ((gather first after).2.filterMap id).map some) := by
  induction before with
  | nil =>
      rw [List.nil_append, gather_merge (by rwa [canMerge_nil]), List.nil_append,
        ← gather_places (isSimple_iff.mp hfirst).1 after]
      rfl
  | cons clause before ih =>
      obtain ⟨hclause, hbefore⟩ := List.forall_mem_cons.mp hbefore
      rw [List.cons_append, gather_apart (by rwa [canMerge_nil]), ih hbefore]
      rfl

/-- The clauses that are not simple stay apart, in their order. -/
theorem filter_gather (merged : Document) (clauses : List Document) :
    (((gather merged clauses).2.filterMap id).filter fun clause => !isSimple clause) =
      clauses.filter fun clause => !isSimple clause := by
  induction clauses generalizing merged with
  | nil => rfl
  | cons clause clauses ih =>
      cases hmerge : canMerge merged clause with
      | true =>
          have hsimple := (canMerge_iff.mp hmerge).1
          rw [filterMap_gather_merge hmerge, ih, List.filter_cons, hsimple]
          rfl
      | false =>
          rw [gather_apart hmerge, List.filterMap_cons, id, List.filter_cons, List.filter_cons, ih]

/-- Every entry of a simple clause is merged or stays apart with its clause. -/
theorem gather_perm (merged : Document) (clauses : List Document) :
    ((gather merged clauses).1 ++
      (((gather merged clauses).2.filterMap id).filter isSimple).flatten).Perm
        (merged ++ (clauses.filter isSimple).flatten) := by
  induction clauses generalizing merged with
  | nil => exact .rfl
  | cons clause clauses ih =>
      cases hmerge : canMerge merged clause with
      | true =>
          have hsimple := (canMerge_iff.mp hmerge).1
          rw [filterMap_gather_merge hmerge, gather_merge hmerge, List.filter_cons_of_pos hsimple,
            List.flatten_cons, ← List.append_assoc]
          exact ih (merged ++ clause)
      | false =>
          rw [gather_apart hmerge, List.filterMap_cons, id]
          dsimp only
          cases hsimple : isSimple clause with
          | true =>
              rw [List.filter_cons_of_pos hsimple, List.filter_cons_of_pos hsimple,
                List.flatten_cons, List.flatten_cons]
              exact (List.perm_append_comm_assoc ..).trans
                (((ih merged).append_left clause).trans (List.perm_append_comm_assoc ..))
          | false =>
              rw [List.filter_cons_of_neg (by simp [hsimple]),
                List.filter_cons_of_neg (by simp [hsimple])]
              exact ih merged

/-- A simple clause that stays apart has a field of the merged document. -/
theorem exists_key_of_mem_gather {clause : Document}
    (h : clause ∈ (gather merged clauses).2.filterMap id) (hsimple : isSimple clause = true) :
    ∃ key ∈ clause.keys, key ∈ (gather merged clauses).1.keys := by
  have hmerge := canMerge_gather h
  rw [← Bool.not_eq_true, canMerge_iff, not_and] at hmerge
  have hkeys := hmerge hsimple
  simp only [Classical.not_forall, Classical.not_not] at hkeys
  obtain ⟨key, hmerged, hclause⟩ := hkeys
  exact ⟨key, hclause, hmerged⟩

end gather

/-! ### What stands in the `$and` -/

/-- What a conjunction of clauses that cannot all be merged leaves side by side. -/
structure Separates (clauses parts : List Document) : Prop where
  two : 2 ≤ parts.length
  /-- Clauses that are not simple are left as they are, in their order. -/
  others : (parts.filter fun clause => !isSimple clause) =
    clauses.filter fun clause => !isSimple clause
  /-- No entry of a simple clause is lost or doubled. -/
  entries : (parts.filter isSimple).flatten.Perm (clauses.filter isSimple).flatten
  /-- The merged document stands in the place of the first simple clause, which it starts with.
  What comes behind it was there before, and a simple clause among it has a field of the merged
  document. -/
  place : ∀ before first after, clauses = before ++ first :: after →
    (∀ clause ∈ before, isSimple clause = false) → isSimple first = true →
      ∃ merged rest, parts = before ++ merged :: rest ∧ isSimple merged = true ∧
        first <+: merged ∧ rest.Sublist after ∧
        ∀ clause ∈ rest, isSimple clause = true → ∃ key ∈ clause.keys, key ∈ merged.keys
  /-- There is nothing left to merge. -/
  settled : conjunction parts = entry Op.and (Datum.ofDocuments parts)

section separates
variable {clauses : List Document}

/-- The clauses after merging: those that stay apart, and the merged document in its place. -/
def mergedClauses (clauses : List Document) : List Document :=
  (gather [] clauses).2.map fun place => place.getD (gather [] clauses).1

theorem mergedClauses_of_not_isSimple (h : ∀ clause ∈ clauses, isSimple clause = false) :
    mergedClauses clauses = clauses := by
  have happart : ∀ clause ∈ clauses, canMerge [] clause = false := by
    intro clause hclause
    rw [canMerge_nil, h clause hclause]
  rw [mergedClauses, gather_of_not_canMerge happart]
  simp [Function.comp_def]

theorem mergedClauses_append_cons {before after : List Document} {first : Document}
    (hbefore : ∀ clause ∈ before, isSimple clause = false) (hfirst : isSimple first = true) :
    mergedClauses (before ++ first :: after) =
      before ++ (gather first after).1 :: (gather first after).2.filterMap id := by
  rw [mergedClauses, gather_append_cons hbefore hfirst]
  simp [Function.comp_def]

/-- Either no clause is simple, or there is a first one. -/
theorem exists_first_isSimple (clauses : List Document) :
    (∀ clause ∈ clauses, isSimple clause = false) ∨
      ∃ before first after, clauses = before ++ first :: after ∧
        (∀ clause ∈ before, isSimple clause = false) ∧ isSimple first = true := by
  cases hfirst : clauses.find? isSimple with
  | none => exact .inl (by simpa using List.find?_eq_none.mp hfirst)
  | some first =>
      obtain ⟨hsimple, before, after, rfl, hbefore⟩ := List.find?_eq_some_iff_append.mp hfirst
      exact .inr ⟨before, first, after, rfl, by simpa using hbefore, hsimple⟩

theorem length_searches_mergedClauses_le (clauses : List Document) :
    (searches (mergedClauses clauses)).length ≤ (searches clauses).length := by
  rcases exists_first_isSimple clauses with h | ⟨before, first, after, rfl, hbefore, hfirst⟩
  · exact Nat.le_of_eq (by rw [mergedClauses_of_not_isSimple h])
  · have hmerged : searchOf? (gather first after).1 = none :=
      searchOf?_of_isSimple (isSimple_gather hfirst)
    have hrest := ((gather_sublist first after).filterMap searchOf?).length_le
    rw [mergedClauses_append_cons hbefore hfirst]
    simp only [searches, List.filterMap_append, List.filterMap_cons, hmerged,
      searchOf?_of_isSimple hfirst, List.length_append] at hrest ⊢
    omega

theorem separates_mergedClauses (two : 2 ≤ (mergedClauses clauses).length)
    (one_text : (searches clauses).length ≤ 1) :
    Separates clauses (mergedClauses clauses) := by
  have settled : conjunction (mergedClauses clauses) =
      entry Op.and (Datum.ofDocuments (mergedClauses clauses)) :=
    (gather_staysApart clauses).conjunction_eq two
      (Nat.le_trans (length_searches_mergedClauses_le clauses) one_text)
  rcases exists_first_isSimple clauses with h | ⟨before, first, after, rfl, hbefore, hfirst⟩
  · rw [mergedClauses_of_not_isSimple h] at two settled ⊢
    refine ⟨two, rfl, .rfl, ?_, settled⟩
    rintro before first after rfl - hfirst
    rw [h first (by simp)] at hfirst
    cases hfirst
  · have hmerged : isSimple (gather first after).1 = true := isSimple_gather hfirst
    have hothers := filter_gather first after
    have hentries := gather_perm first after
    have hnone : before.filter isSimple = [] := by
      simpa [List.filter_eq_nil_iff] using hbefore
    refine ⟨two, ?_, ?_, ?_, settled⟩
    · rw [mergedClauses_append_cons hbefore hfirst]
      simp only [List.filter_append, List.filter_cons, hmerged, hfirst, hothers]
      rfl
    · rw [mergedClauses_append_cons hbefore hfirst]
      simpa only [List.filter_append, List.filter_cons, hmerged, hfirst, hnone, if_true,
        List.nil_append, List.flatten_cons] using hentries
    · -- The place of the first simple clause can be found in one way only.
      intro before' first' after' heq hbefore' hfirst'
      rw [heq, mergedClauses_append_cons hbefore' hfirst']
      refine ⟨_, _, rfl, isSimple_gather hfirst', ?_, gather_sublist first' after',
        fun clause hclause => exists_key_of_mem_gather hclause⟩
      obtain ⟨more, hmore⟩ := gather_extends first' after'
      exact ⟨more, hmore.symm⟩

end separates

/-! ### Conjunctions -/

section conjunction
variable {clauses joined : List Document}

/-- If only the merged document is left, all clauses went into it. -/
theorem areDisjoint_of_gather (h : (gather [] clauses).2 = [none]) :
    (∀ clause ∈ clauses, isSimple clause = true) ∧ AreDisjoint clauses := by
  rcases exists_first_isSimple clauses with hnone | ⟨before, first, after, rfl, hbefore, hfirst⟩
  · have happart : ∀ clause ∈ clauses, canMerge [] clause = false := by
      intro clause hclause
      rw [canMerge_nil, hnone clause hclause]
    rw [gather_of_not_canMerge happart] at h
    cases clauses <;> cases h
  · rw [gather_append_cons hbefore hfirst] at h
    cases before with
    | cons clause before => cases h
    | nil =>
        have hafter : (gather first after).2.filterMap id = [] := by simpa using h
        obtain ⟨hsimple, hdisjoint⟩ := filterMap_gather_eq_nil_iff.mp hafter
        exact ⟨List.forall_mem_cons.mpr ⟨hfirst, hsimple⟩, hdisjoint⟩

/-- A text search is not simple, so among simple clauses there was none to join. -/
theorem SearchesJoined.eq_of_isSimple (h : SearchesJoined clauses joined)
    (hsimple : ∀ clause ∈ joined, isSimple clause = true) : joined = clauses := by
  cases h with
  | none _ => rfl
  | some _ =>
      have htext := hsimple _ (List.mem_append_right _ List.mem_cons_self)
      have hsearch := searchOf?_of_isSimple htext
      rw [searchOf?_textSearch] at hsearch
      cases hsearch

theorem not_mem_keys_flatten (hsimple : ∀ clause ∈ clauses, isSimple clause = true) :
    Op.and ∉ Document.keys clauses.flatten := by
  rw [Document.keys, List.mem_map]
  rintro ⟨e, he, hkey⟩
  obtain ⟨clause, hclause, he⟩ := List.mem_flatten.mp he
  have hname := (isSimple_iff.mp (hsimple clause hclause)).2 e he
  rw [hkey] at hname
  cases hname

/-- Clauses that cannot all be merged are joined by an `$and`. -/
theorem conjunction_eq_and (hne : clauses ≠ []) (two : 2 ≤ (joinSearches clauses).length)
    (h : ¬((∀ clause ∈ joinSearches clauses, isSimple clause = true) ∧
      AreDisjoint (joinSearches clauses))) :
    2 ≤ (mergedClauses (joinSearches clauses)).length ∧
      conjunction clauses =
        entry Op.and (Datum.ofDocuments (mergedClauses (joinSearches clauses))) := by
  rcases conjunction_cases hne with
    ⟨clause, hc, -⟩ | ⟨merged, hg, -⟩ | ⟨merged, places, hg, htwo, heq⟩
  · rw [hc] at two
    simp at two
  · exact absurd (areDisjoint_of_gather (by rw [hg])) h
  · rw [mergedClauses, hg, List.length_map]
    exact ⟨htwo, heq⟩

/-- **A conjunction loses nothing, doubles nothing and wraps nothing that it can merge.**  Of its
clauses, with the text searches joined, a single one is the conjunction; simple ones without common
fields are merged into one document; and otherwise the merged document and the clauses that it
cannot take stand in an `$and`. -/
theorem conjunction_merges (hne : clauses ≠ []) :
    SearchesJoined clauses (joinSearches clauses) ∧
    (∀ clause, joinSearches clauses = [clause] → conjunction clauses = clause) ∧
    (2 ≤ (joinSearches clauses).length →
      (∀ clause ∈ joinSearches clauses, isSimple clause = true) →
      AreDisjoint (joinSearches clauses) →
        conjunction clauses = (joinSearches clauses).flatten ∧
          Op.and ∉ (conjunction clauses).keys) ∧
    (2 ≤ (joinSearches clauses).length →
      ¬((∀ clause ∈ joinSearches clauses, isSimple clause = true) ∧
        AreDisjoint (joinSearches clauses)) →
        ∃ parts, conjunction clauses = entry Op.and (Datum.ofDocuments parts) ∧
          Separates (joinSearches clauses) parts) := by
  have hjoined := searchesJoined_joinSearches clauses
  refine ⟨hjoined, ?_, ?_, ?_⟩
  · intro clause hclause
    rw [conjunction, hclause]
  · intro _ hsimple hdisjoint
    have hsame := hjoined.eq_of_isSimple hsimple
    rw [hsame] at hsimple hdisjoint ⊢
    rw [conjunction_disjoint hne hsimple hdisjoint]
    exact ⟨rfl, not_mem_keys_flatten hsimple⟩
  · intro two h
    obtain ⟨hparts, heq⟩ := conjunction_eq_and hne two h
    exact ⟨_, heq, separates_mergedClauses hparts (length_searches_placeSearch_le _ clauses)⟩

/-- Two text searches around other clauses, and two conditions on one field. -/
theorem conjunction_merges_collision :
    ∃ either : Document, ∃ clauses joined parts : List Document,
      either = entry Op.or (Datum.ofDocuments [entry "x" (.bool true), entry "y" (.bool true)]) ∧
      clauses = [entry "a" (.int 1), textSearch "foo", either, entry "b" (.int 2),
        entry "a" (.int 3), textSearch "bar baz"] ∧
      joined = [entry "a" (.int 1), textSearch "foo bar baz", either, entry "b" (.int 2),
        entry "a" (.int 3)] ∧
      parts = [entry "a" (.int 1) ++ entry "b" (.int 2), textSearch "foo bar baz", either,
        entry "a" (.int 3)] ∧
      SearchesJoined clauses joined ∧
      conjunction clauses = entry Op.and (Datum.ofDocuments parts) ∧ Separates joined parts := by
  refine ⟨_, _, _, _, rfl, rfl, rfl, rfl, ?_⟩
  have hne : [entry "a" (.int 1), textSearch "foo",
      entry Op.or (Datum.ofDocuments [entry "x" (.bool true), entry "y" (.bool true)]),
      entry "b" (.int 2), entry "a" (.int 3), textSearch "bar baz"] ≠ [] := by
    simp
  obtain ⟨hjoined, -, -, hand⟩ := conjunction_merges hne
  obtain ⟨parts, heq, hseparates⟩ := hand (by decide) fun h => by
    have hsimple : isSimple (textSearch "foo bar baz") = true := h.1 _ (.tail _ (.head _))
    cases hsimple
  have hparts : parts = [entry "a" (.int 1) ++ entry "b" (.int 2), textSearch "foo bar baz",
      entry Op.or (Datum.ofDocuments [entry "x" (.bool true), entry "y" (.bool true)]),
      entry "a" (.int 3)] := by
    have harray := Datum.array.inj (congrArg Prod.snd (List.cons.inj heq).1)
    exact (List.map_inj_right fun _ _ h => Datum.document.inj h).mp harray.symm
  rw [hparts] at heq hseparates
  exact ⟨hjoined, heq, hseparates⟩

end conjunction

end QueryFilter
