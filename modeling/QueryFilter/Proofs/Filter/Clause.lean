import QueryFilter.Proofs.Filter.Leaf

/-! # Clauses

`Document.IsClause` is the grammar of filters.  A clause is a text search, a conjunction or
disjunction of at least two clauses, or a document with conditions on fields.  Conjunctions have at
most one text search among them, and disjunctions do not consist of text searches alone, since text
searches are joined into one.

The operations on clauses stay inside the grammar: `conjunction_isClause`, `disjunction_isClause`
and `Document.IsClause.negate`.  For `conjunction`, which takes its clauses apart and puts them
together again, `conjunction_cases` says once what it can come to. -/

namespace QueryFilter

/-! ### The grammar -/

/-- What a filter asks of a field: a leaf, or the negation of one. -/
inductive Datum.IsCondition : Datum → Prop
  | plain {leaf : Datum} (h : leaf.IsLeaf) : IsCondition leaf
  | negated {leaf : Datum} (h : leaf.IsLeaf) :
      IsCondition (.document (Document.entry Op.ne leaf))

namespace Document

/-- The entries are conditions on different fields. -/
structure IsFields (document : Document) : Prop where
  nodup : document.keys.Nodup
  names : ∀ e ∈ document, isOperatorName e.1 = false
  conditions : ∀ e ∈ document, e.2.IsCondition

/-- A clause of a filter; `texts` says whether there may be text searches. -/
inductive IsClause (texts : Prop) : Document → Prop
  | text (allowed : texts) (search : String) : IsClause texts (textSearch search)
  | and {clauses : List Document} (two : 2 ≤ clauses.length)
      (each : ∀ clause ∈ clauses, IsClause texts clause)
      (one_text : (searches clauses).length ≤ 1) :
      IsClause texts (entry Op.and (Datum.ofDocuments clauses))
  | or {clauses : List Document} (two : 2 ≤ clauses.length)
      (each : ∀ clause ∈ clauses, IsClause texts clause)
      (some_other : ∃ clause ∈ clauses, searchOf? clause = none) :
      IsClause texts (entry Op.or (Datum.ofDocuments clauses))
  | fields {document : Document} (some_field : document ≠ []) (h : document.IsFields) :
      IsClause texts document

end Document

/-! ### Text searches -/

theorem searchOf?_eq_some_iff {document : Document} {search : String} :
    searchOf? document = some search ↔ document = textSearch search := by
  constructor
  · intro h
    unfold searchOf? at h
    split at h
    · split at h
      · next hkeys =>
        cases h
        rw [hkeys.1, hkeys.2]
        rfl
      · cases h
    · cases h
  · rintro rfl
    exact searchOf?_textSearch search

theorem searchOf?_entry_of_ne {key : String} (hkey : key ≠ Op.text) (value : Datum) :
    searchOf? (Document.entry key value) = none := by
  cases hs : searchOf? (Document.entry key value) with
  | none => rfl
  | some search =>
      rw [searchOf?_eq_some_iff, textSearch, Document.entry, Document.entry, List.cons.injEq,
        Prod.mk.injEq] at hs
      exact absurd hs.1.1 hkey

theorem searchOf?_and (value : Datum) : searchOf? (Document.entry Op.and value) = none :=
  searchOf?_entry_of_ne (by decide) value

theorem searchOf?_or (value : Datum) : searchOf? (Document.entry Op.or value) = none :=
  searchOf?_entry_of_ne (by decide) value

theorem searchOf?_field {key : String} (hkey : isOperatorName key = false) (value : Datum) :
    searchOf? (Document.entry key value) = none :=
  searchOf?_entry_of_ne (by rintro rfl; exact absurd hkey (by decide)) value

theorem Document.IsFields.searchOf?_eq_none {document : Document} (h : document.IsFields) :
    searchOf? document = none := by
  cases hs : searchOf? document with
  | none => rfl
  | some search =>
      rw [searchOf?_eq_some_iff] at hs
      subst hs
      have hname : isOperatorName Op.text = false := h.names _ (List.mem_singleton_self _)
      exact absurd hname (by decide)

section joined
variable {joined clause : Document} {clauses : List Document}

theorem placeSearch_ne_nil (h : clauses ≠ []) : placeSearch joined clauses ≠ [] := by
  cases clauses with
  | nil => exact absurd rfl h
  | cons first clauses =>
      rw [placeSearch]
      split <;> simp

theorem mem_placeSearch (h : clause ∈ placeSearch joined clauses) :
    (clause = joined ∧ ∃ other ∈ clauses, (searchOf? other).isSome = true) ∨
      (clause ∈ clauses ∧ searchOf? clause = none) := by
  induction clauses with
  | nil => cases h
  | cons first clauses ih =>
      rw [placeSearch] at h
      split at h
      · next hfirst =>
        rcases List.mem_cons.mp h with rfl | h
        · exact .inl ⟨rfl, first, by simp, hfirst⟩
        · obtain ⟨hmem, hnone⟩ := List.mem_filter.mp h
          exact .inr ⟨by simp [hmem], by simpa using hnone⟩
      · next hfirst =>
        rcases List.mem_cons.mp h with rfl | h
        · exact .inr ⟨by simp, by simpa using hfirst⟩
        · rcases ih h with ⟨rfl, other, hother, hsome⟩ | ⟨hmem, hnone⟩
          · exact .inl ⟨rfl, other, by simp [hother], hsome⟩
          · exact .inr ⟨by simp [hmem], hnone⟩

theorem mem_placeSearch_of_none (h : clause ∈ clauses) (hnone : searchOf? clause = none) :
    clause ∈ placeSearch joined clauses := by
  induction clauses with
  | nil => cases h
  | cons first clauses ih =>
      rw [placeSearch]
      split
      · next hfirst =>
        rcases List.mem_cons.mp h with rfl | h
        · rw [hnone] at hfirst
          cases hfirst
        · exact List.mem_cons_of_mem _ (List.mem_filter.mpr ⟨h, by simp [hnone]⟩)
      · rcases List.mem_cons.mp h with rfl | h
        · exact List.mem_cons_self
        · exact List.mem_cons_of_mem _ (ih h)

/-- Nothing is joined where there is no text search. -/
theorem placeSearch_of_none (h : ∀ clause ∈ clauses, searchOf? clause = none) :
    placeSearch joined clauses = clauses := by
  induction clauses with
  | nil => rfl
  | cons first clauses ih =>
      obtain ⟨hfirst, hrest⟩ := List.forall_mem_cons.mp h
      rw [placeSearch, hfirst, ih hrest]
      rfl

theorem length_searches_placeSearch_le (search : String) (clauses : List Document) :
    (searches (placeSearch (textSearch search) clauses)).length ≤ 1 := by
  induction clauses with
  | nil => simp [placeSearch, searches]
  | cons first clauses ih =>
      rw [placeSearch]
      split
      · have hnone : searches (clauses.filter fun other => (searchOf? other).isNone) = [] := by
          apply List.filterMap_eq_nil_iff.mpr
          intro clause hclause
          simpa using (List.mem_filter.mp hclause).2
        rw [searches, List.filterMap_cons, searchOf?_textSearch]
        simp only [searches] at hnone
        simp [hnone]
      · next hfirst =>
        have hfirst : searchOf? first = none := by simpa using hfirst
        rw [searches, List.filterMap_cons, hfirst]
        exact ih

/-- Text searches alone become one. -/
theorem joinSearches_of_isSome (hne : clauses ≠ [])
    (h : ∀ clause ∈ clauses, (searchOf? clause).isSome = true) :
    joinSearches clauses = [joinedSearch clauses] := by
  obtain ⟨first, clauses, rfl⟩ := List.exists_cons_of_ne_nil hne
  obtain ⟨hfirst, hrest⟩ := List.forall_mem_cons.mp h
  have hothers : (clauses.filter fun other => (searchOf? other).isNone) = [] := by
    rw [List.filter_eq_nil_iff]
    intro clause hclause
    simp [Option.isSome_iff_ne_none.mp (hrest clause hclause)]
  rw [joinSearches, placeSearch, if_pos hfirst, hothers]

end joined

/-! ### Merging -/

section gather
variable {merged clause : Document} {clauses : List Document}

theorem gather_merge (h : canMerge merged clause = true) (clauses : List Document) :
    gather merged (clause :: clauses) =
      ((gather (merged ++ clause) clauses).1,
        if merged.isEmpty then none :: (gather (merged ++ clause) clauses).2
        else (gather (merged ++ clause) clauses).2) := by
  rw [gather, if_pos h]

/-- A clause that is merged does not stay apart. -/
theorem filterMap_gather_merge (h : canMerge merged clause = true) (clauses : List Document) :
    (gather merged (clause :: clauses)).2.filterMap id =
      (gather (merged ++ clause) clauses).2.filterMap id := by
  rw [gather_merge h]
  dsimp only
  split
  · rfl
  · rfl

theorem gather_apart (h : canMerge merged clause = false) (clauses : List Document) :
    gather merged (clause :: clauses) =
      ((gather merged clauses).1, some clause :: (gather merged clauses).2) := by
  rw [gather, if_neg (by simp [h])]

/-- What the merged document has, and keeps whenever a clause is merged, it has in the end. -/
theorem gather_keeps {Q : Document → Prop}
    (hkeeps : ∀ merged, ∀ clause ∈ clauses, canMerge merged clause = true → Q merged →
      Q (merged ++ clause))
    (hmerged : Q merged) : Q (gather merged clauses).1 := by
  induction clauses generalizing merged with
  | nil => exact hmerged
  | cons clause clauses ih =>
      have hrest : ∀ merged, Q merged → Q (gather merged clauses).1 := fun _ =>
        ih fun merged other hother => hkeeps merged other (List.mem_cons_of_mem clause hother)
      cases hmerge : canMerge merged clause with
      | true =>
          rw [gather_merge hmerge]
          exact hrest _ (hkeeps merged clause List.mem_cons_self hmerge hmerged)
      | false =>
          rw [gather_apart hmerge]
          exact hrest _ hmerged

/-- What was merged stays merged. -/
theorem gather_extends (merged : Document) (clauses : List Document) :
    ∃ more, (gather merged clauses).1 = merged ++ more := by
  apply gather_keeps (Q := fun document => ∃ more, document = merged ++ more)
  · rintro _ clause - - ⟨more, rfl⟩
    exact ⟨more ++ clause, List.append_assoc ..⟩
  · exact ⟨[], (List.append_nil merged).symm⟩

/-- The clauses that stay apart keep their order. -/
theorem gather_sublist (merged : Document) (clauses : List Document) :
    ((gather merged clauses).2.filterMap id).Sublist clauses := by
  induction clauses generalizing merged with
  | nil => exact .slnil
  | cons clause clauses ih =>
      cases hmerge : canMerge merged clause with
      | true =>
          rw [filterMap_gather_merge hmerge]
          exact (ih (merged ++ clause)).cons clause
      | false =>
          rw [gather_apart hmerge]
          exact (ih merged).cons_cons clause

/-- Where the merged document has no place, nothing was merged. -/
theorem gather_nil_of_none_not_mem (h : none ∉ (gather [] clauses).2) :
    gather [] clauses = ([], clauses.map some) := by
  induction clauses with
  | nil => rfl
  | cons clause clauses ih =>
      cases hmerge : canMerge [] clause with
      | true =>
          rw [gather_merge hmerge] at h
          exact absurd List.mem_cons_self h
      | false =>
          rw [gather_apart hmerge] at h ⊢
          rw [ih fun hn => h (List.mem_cons_of_mem _ hn)]
          rfl

theorem ne_nil_of_canMerge (h : canMerge merged clause = true) : clause ≠ [] := by
  rintro rfl
  simp [canMerge, isSimple] at h

/-- The merged document has a place only if there is one. -/
theorem gather_ne_nil_of_none_mem (h : none ∈ (gather merged clauses).2) :
    (gather merged clauses).1 ≠ [] := by
  induction clauses generalizing merged with
  | nil => cases h
  | cons clause clauses ih =>
      cases hmerge : canMerge merged clause with
      | true =>
          obtain ⟨more, hmore⟩ := gather_extends (merged ++ clause) clauses
          rw [gather_merge hmerge, hmore]
          simp [ne_nil_of_canMerge hmerge]
      | false =>
          rw [gather_apart hmerge] at h ⊢
          rcases List.mem_cons.mp h with h | h
          · cases h
          · exact ih h

end gather

/-- What a conjunction can come to: its only clause, the merged document, or an `$and`. -/
theorem conjunction_cases {clauses : List Document} (h : clauses ≠ []) :
    (∃ clause, joinSearches clauses = [clause] ∧ conjunction clauses = clause) ∨
    (∃ merged, gather [] (joinSearches clauses) = (merged, [none]) ∧
      conjunction clauses = merged) ∨
    (∃ merged places, gather [] (joinSearches clauses) = (merged, places) ∧
      2 ≤ places.length ∧
      conjunction clauses = Document.entry Op.and
        (Datum.ofDocuments (places.map fun place => place.getD merged))) := by
  unfold conjunction
  cases hjoin : joinSearches clauses with
  | nil => exact absurd hjoin (placeSearch_ne_nil h)
  | cons first rest =>
      cases rest with
      | nil => exact .inl ⟨first, rfl, rfl⟩
      | cons second rest =>
          right
          dsimp only
          split
          · next merged hgather => exact .inl ⟨merged, hgather, rfl⟩
          · next merged places hplaces hgather =>
            refine .inr ⟨merged, places, hgather, ?_, rfl⟩
            by_cases hnone : none ∈ places
            · match places, hplaces, hnone with
              | [none], hplaces, _ => exact (hplaces rfl).elim
              | [some _], _, hnone => simp at hnone
              | _ :: _ :: _, _, _ => simp
            · have h : gather [] (first :: second :: rest) = _ :=
                gather_nil_of_none_not_mem (by rw [hgather]; exact hnone)
              rw [hgather, Prod.mk.injEq] at h
              rw [h.2]
              simp

/-! ### Conjunctions and disjunctions in the grammar -/

namespace Document

variable {texts : Prop} {document merged clause : Document} {clauses : List Document}

theorem IsFields.nil : IsFields [] := ⟨by simp [keys], by simp, by simp⟩

theorem IsFields.append (hmerged : merged.IsFields) (hclause : clause.IsFields)
    (h : canMerge merged clause = true) : IsFields (merged ++ clause) := by
  refine ⟨?_, ?_, ?_⟩
  · rw [keys, List.map_append, List.nodup_append]
    refine ⟨hmerged.nodup, hclause.nodup, ?_⟩
    rintro key hkey _ hkey' rfl
    simp only [canMerge, Bool.and_eq_true, List.all_eq_true, Bool.not_eq_true', hasKey,
      List.any_eq_false, beq_iff_eq] at h
    obtain ⟨e, he, rfl⟩ := List.mem_map.mp hkey
    exact h.2 e.1 hkey' e he rfl
  · exact List.forall_mem_append.mpr ⟨hmerged.names, hclause.names⟩
  · exact List.forall_mem_append.mpr ⟨hmerged.conditions, hclause.conditions⟩

/-- Of the clauses, only those on fields can be merged. -/
theorem IsClause.isFields_of_isSimple (h : IsClause texts document)
    (hsimple : isSimple document = true) : document.IsFields := by
  cases h with
  | text allowed search => simp [isSimple, textSearch, entry, keys] at hsimple; cases hsimple
  | and => simp [isSimple, entry, keys] at hsimple; cases hsimple
  | or => simp [isSimple, entry, keys] at hsimple; cases hsimple
  | fields _ h => exact h

theorem gather_isFields (hmerged : merged.IsFields)
    (h : ∀ clause ∈ clauses, IsClause texts clause) : (gather merged clauses).1.IsFields := by
  refine gather_keeps (fun merged clause hclause hmerge hmerged => ?_) hmerged
  have hsimple : isSimple clause = true := (Bool.and_eq_true_iff.mp hmerge).1
  exact hmerged.append ((h clause hclause).isFields_of_isSimple hsimple) hmerge

theorem IsClause.texts_of_searchOf? (h : IsClause texts document)
    (hsearch : (searchOf? document).isSome = true) : texts := by
  cases h with
  | text allowed search => exact allowed
  | and => rw [searchOf?_and] at hsearch; cases hsearch
  | or => rw [searchOf?_or] at hsearch; cases hsearch
  | fields _ h => rw [h.searchOf?_eq_none] at hsearch; cases hsearch

theorem IsClause.searchOf?_eq_none (h : IsClause False document) : searchOf? document = none := by
  rw [← Option.not_isSome_iff_eq_none]
  exact h.texts_of_searchOf?

theorem joinSearches_isClause (h : ∀ clause ∈ clauses, IsClause texts clause) :
    ∀ clause ∈ joinSearches clauses, IsClause texts clause := by
  intro clause hclause
  rcases mem_placeSearch hclause with ⟨rfl, other, hother, hsome⟩ | ⟨hmem, -⟩
  · exact .text ((h other hother).texts_of_searchOf? hsome) _
  · exact h clause hmem

theorem searches_places {places : List (Option Document)} (h : searchOf? merged = none) :
    searches (places.map fun place => place.getD merged) = searches (places.filterMap id) := by
  induction places with
  | nil => rfl
  | cons place places ih =>
      cases place with
      | none => simpa [searches, h] using ih
      | some clause =>
          simp only [searches, List.map_cons, Option.getD_some, List.filterMap_cons, id] at ih ⊢
          rw [ih]

end Document

open Document

section clauses
variable {texts : Prop} {clauses : List Document}

theorem entry_isFields {key : String} (hkey : isOperatorName key = false) {condition : Datum}
    (h : condition.IsCondition) : (entry key condition).IsFields :=
  ⟨by simp [entry, keys], by simpa [entry] using hkey, by simpa [entry] using h⟩

theorem entry_isClause {key : String} (hkey : isOperatorName key = false) {condition : Datum}
    (h : condition.IsCondition) : IsClause texts (entry key condition) :=
  .fields (by simp [entry]) (entry_isFields hkey h)

theorem conjunction_isClause (hne : clauses ≠ [])
    (h : ∀ clause ∈ clauses, IsClause texts clause) : IsClause texts (conjunction clauses) := by
  have hjoin := joinSearches_isClause h
  have hfields : (gather [] (joinSearches clauses)).1.IsFields := gather_isFields .nil hjoin
  have hnonempty : none ∈ (gather [] (joinSearches clauses)).2 → _ := gather_ne_nil_of_none_mem
  have happart := gather_sublist [] (joinSearches clauses)
  rcases conjunction_cases hne with
    ⟨clause, hc, heq⟩ | ⟨merged, hg, heq⟩ | ⟨merged, places, hg, htwo, heq⟩
  · rw [heq]
    exact hjoin clause (by simp [hc])
  · rw [heq]
    rw [hg] at hfields hnonempty
    exact .fields (hnonempty (by simp)) hfields
  · rw [heq]
    rw [hg] at hfields hnonempty happart
    refine .and (by simpa using htwo) ?_ ?_
    · intro clause hclause
      obtain ⟨place, hplace, rfl⟩ := List.mem_map.mp hclause
      cases place with
      | none => exact .fields (hnonempty hplace) hfields
      | some clause => exact hjoin clause (happart.subset (List.mem_filterMap.mpr ⟨_, hplace, rfl⟩))
    · rw [searches_places hfields.searchOf?_eq_none]
      exact Nat.le_trans (happart.filterMap searchOf?).length_le
        (length_searches_placeSearch_le _ clauses)

theorem searchOf?_conjunction (hne : clauses ≠ [])
    (h : ∀ clause ∈ clauses, IsClause texts clause)
    (hother : ∃ clause ∈ clauses, searchOf? clause = none) :
    searchOf? (conjunction clauses) = none := by
  have hfields : (gather [] (joinSearches clauses)).1.IsFields :=
    gather_isFields .nil (joinSearches_isClause h)
  rcases conjunction_cases hne with
    ⟨clause, hc, heq⟩ | ⟨merged, hg, heq⟩ | ⟨merged, places, hg, htwo, heq⟩
  · obtain ⟨other, hmem, hnone⟩ := hother
    have hother : other ∈ joinSearches clauses := mem_placeSearch_of_none hmem hnone
    rw [hc, List.mem_singleton] at hother
    rw [heq, ← hother, hnone]
  · rw [hg] at hfields
    rw [heq, hfields.searchOf?_eq_none]
  · rw [heq, searchOf?_and]

theorem disjunction_isClause (hne : clauses ≠ [])
    (h : ∀ clause ∈ clauses, IsClause texts clause) : IsClause texts (disjunction clauses) := by
  match clauses, hne, h with
  | [clause], _, h => exact h clause (by simp)
  | first :: second :: rest, _, h =>
      rw [disjunction]
      · split
        · next hall =>
          have hfirst := List.all_eq_true.mp hall first (by simp)
          exact .text ((h first (by simp)).texts_of_searchOf? hfirst) _
        · next hall =>
          rw [Bool.not_eq_true, List.all_eq_false] at hall
          obtain ⟨other, hother, hnone⟩ := hall
          exact .or (by simp) h ⟨other, hother, by simpa using hnone⟩
      · simp

theorem searchOf?_disjunction (hother : ∃ clause ∈ clauses, searchOf? clause = none) :
    searchOf? (disjunction clauses) = none := by
  obtain ⟨other, hmem, hnone⟩ := hother
  unfold disjunction
  split
  · rw [← List.mem_singleton.mp hmem, hnone]
  · rw [if_neg, searchOf?_or]
    intro hall
    have hsome := List.all_eq_true.mp hall other hmem
    rw [hnone] at hsome
    cases hsome

/-- Not all of several clauses are text searches if at most one is. -/
theorem exists_searchOf?_eq_none (h : (searches clauses).length < clauses.length) :
    ∃ clause ∈ clauses, searchOf? clause = none := by
  induction clauses with
  | nil => cases h
  | cons first clauses ih =>
      cases hfirst : searchOf? first with
      | none => exact ⟨first, by simp, hfirst⟩
      | some search =>
          have hrest : (searches clauses).length < clauses.length := by
            simpa [searches, hfirst] using h
          obtain ⟨clause, hclause, hnone⟩ := ih hrest
          exact ⟨clause, by simp [hclause], hnone⟩

end clauses

/-! ### Negation in the grammar -/

theorem Datum.IsLeaf.negateValue_eq {leaf : Datum} (h : leaf.IsLeaf) :
    negateValue leaf = .document (entry Op.ne leaf) := by
  cases h with
  | compared hkey =>
      rw [negateValue, if_neg]
      rintro rfl
      exact absurd hkey (by decide)
  | present => rfl
  | regex => rfl
  | _ => rfl

theorem negateValue_negated (leaf : Datum) : negateValue (.document (entry Op.ne leaf)) = leaf := by
  rw [entry, negateValue, if_pos rfl]

theorem Datum.IsCondition.negateValue {condition : Datum} (h : condition.IsCondition) :
    (negateValue condition).IsCondition := by
  cases h with
  | plain h =>
      rw [h.negateValue_eq]
      exact .negated h
  | negated h =>
      rw [negateValue_negated]
      exact .plain h

theorem negateEntry_field {key : String} (hkey : isOperatorName key = false) {condition : Datum}
    (h : condition.IsCondition) :
    negateEntry key condition = entry key (negateValue condition) := by
  have hleaf : negateEntry key condition = negateLeaf key condition := by
    cases h with
    | plain h => cases h <;> rfl
    | negated => rfl
  rw [hleaf, negateLeaf, searchOf?_field hkey condition]

theorem negateEntries_eq_map {document : Document} (h : document.IsFields) :
    negateEntries document = document.map fun e => entry e.1 (negateValue e.2) := by
  obtain ⟨-, hnames, hconditions⟩ := h
  induction document with
  | nil => rfl
  | cons e document ih =>
      obtain ⟨hname, hnames⟩ := List.forall_mem_cons.mp hnames
      obtain ⟨hcondition, hconditions⟩ := List.forall_mem_cons.mp hconditions
      rw [negateEntries, negateEntry_field hname hcondition, ih hnames hconditions]
      rfl

theorem negate_textSearch (search : String) :
    negate (textSearch search) = textSearch (negateSearch search) := by
  have hleaf : negate (textSearch search) =
      negateLeaf Op.text (.document (entry Op.search (.string search))) := rfl
  have hsearch : searchOf? (entry Op.text (.document (entry Op.search (.string search)))) =
      some search := searchOf?_textSearch search
  rw [hleaf, negateLeaf, hsearch]

theorem negate_or (clauses : List Document) :
    negate (entry Op.or (Datum.ofDocuments clauses)) = conjunction (clauses.map negate) := by
  rw [entry, negate, Datum.ofDocuments, negateEntry, if_pos rfl, negateItems_documents]

theorem negate_and (clauses : List Document) :
    negate (entry Op.and (Datum.ofDocuments clauses)) =
      entry Op.or (Datum.ofDocuments (clauses.map negate)) := by
  rw [entry, negate, Datum.ofDocuments, negateEntry, if_neg (by decide), if_pos rfl,
    negateItems_documents]

/-- The negation of conditions on fields is the disjunction of their negations. -/
theorem negate_fields {document : Document} (hne : document ≠ []) (h : document.IsFields) :
    negate document = disjunction (document.map fun e => entry e.1 (negateValue e.2)) := by
  match document, hne, h with
  | [e], _, h =>
      exact negateEntry_field (h.names e (by simp)) (h.conditions e (by simp))
  | first :: second :: rest, _, h =>
      have hfirst := searchOf?_field (h.names first (by simp)) (negateValue first.2)
      rw [negate, negateEntries_eq_map h, disjunction, if_neg]
      · simp [hfirst]
      · simp
      · simp

theorem Document.IsFields.negated_isClause {document : Document} (h : document.IsFields)
    (texts : Prop) :
    ∀ clause ∈ document.map fun e => entry e.1 (negateValue e.2), IsClause texts clause := by
  intro clause hclause
  obtain ⟨e, he, rfl⟩ := List.mem_map.mp hclause
  exact entry_isClause (h.names e he) (h.conditions e he).negateValue

/-- The negation of a clause is a clause, and a text search only if the clause is one. -/
theorem Document.IsClause.negate_keeps {texts : Prop} {document : Document}
    (h : IsClause texts document) :
    IsClause texts (negate document) ∧
      (searchOf? document = none → searchOf? (negate document) = none) := by
  induction h with
  | text allowed search =>
      rw [negate_textSearch]
      exact ⟨.text allowed _, fun hnone => by simp at hnone⟩
  | @and clauses two each one_text ih =>
      rw [negate_and]
      refine ⟨.or (by simpa using two) ?_ ?_, fun _ => searchOf?_or _⟩
      · exact List.forall_mem_map.mpr fun clause hclause => (ih clause hclause).1
      · obtain ⟨other, hother, hnone⟩ := exists_searchOf?_eq_none (Nat.lt_of_le_of_lt one_text two)
        exact ⟨negate other, List.mem_map_of_mem hother, (ih other hother).2 hnone⟩
  | @or clauses two each some_other ih =>
      rw [negate_or]
      obtain ⟨other, hother, hnone⟩ := some_other
      have hne : clauses.map negate ≠ [] :=
        List.ne_nil_of_length_pos (by rw [List.length_map]; omega)
      have hclauses : ∀ clause ∈ clauses.map negate, IsClause texts clause :=
        List.forall_mem_map.mpr fun clause hclause => (ih clause hclause).1
      exact ⟨conjunction_isClause hne hclauses, fun _ => searchOf?_conjunction hne hclauses
        ⟨negate other, List.mem_map_of_mem hother, (ih other hother).2 hnone⟩⟩
  | @fields document some_field h =>
      rw [negate_fields some_field h]
      obtain ⟨e, rest, rfl⟩ := List.exists_cons_of_ne_nil some_field
      refine ⟨disjunction_isClause (by simp) (h.negated_isClause texts), fun _ => ?_⟩
      exact searchOf?_disjunction ⟨_, List.mem_map_of_mem List.mem_cons_self,
        searchOf?_field (h.names e (by simp)) _⟩

theorem Document.IsClause.negate {texts : Prop} {document : Document}
    (h : IsClause texts document) : IsClause texts (negate document) := h.negate_keeps.1

end QueryFilter
