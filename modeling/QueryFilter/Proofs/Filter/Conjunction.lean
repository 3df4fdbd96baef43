import QueryFilter.Proofs.Filter.Clause

/-! # What conjunctions leave as it is

A conjunction joins text searches and merges clauses on fields, and does nothing else.  So one
clause is its own conjunction (`conjunction_singleton`), and conditions on different fields are the
entries of one document (`conjunction_disjoint`).

`StaysApart` says of clauses that no two of them are merged.  Such clauses stand unchanged in the
`$and` of their conjunction (`StaysApart.conjunction_eq`).  The clauses in the `$and` of any
conjunction are of this kind (`gather_staysApart`), so nothing is left to merge in it. -/

namespace QueryFilter

open Document

/-! ### Joining nothing -/

section join
variable {clauses : List Document}

/-- A single text search is joined with nothing. -/
theorem joinSearches_eq_self (h : (searches clauses).length ≤ 1) :
    joinSearches clauses = clauses := by
  induction clauses with
  | nil => rfl
  | cons clause clauses ih =>
      cases hsearch : searchOf? clause with
      | none =>
          have hsearches : searches (clause :: clauses) = searches clauses := by
            rw [searches, List.filterMap_cons, hsearch]
            rfl
          rw [hsearches] at h
          rw [joinSearches, placeSearch, hsearch, joinedSearch, hsearches]
          exact congrArg (clause :: ·) (ih h)
      | some search =>
          have hsearches : searches (clause :: clauses) = search :: searches clauses := by
            rw [searches, List.filterMap_cons, hsearch]
            rfl
          rw [hsearches, List.length_cons] at h
          have hnil : searches clauses = [] := List.eq_nil_of_length_eq_zero (by omega)
          have hothers : (clauses.filter fun other => (searchOf? other).isNone) = clauses := by
            rw [List.filter_eq_self]
            intro other hother
            simpa using List.filterMap_eq_nil_iff.mp hnil other hother
          rw [joinSearches, placeSearch, hsearch, joinedSearch, hsearches, hnil, hothers,
            String.intercalate_singleton, ← searchOf?_eq_some_iff.mp hsearch]
          rfl

theorem searches_eq_nil (h : ∀ clause ∈ clauses, searchOf? clause = none) : searches clauses = [] :=
  List.filterMap_eq_nil_iff.mpr h

/-- The conjunction of one clause is the clause. -/
theorem conjunction_singleton (clause : Document) : conjunction [clause] = clause := by
  have hjoin : joinSearches [clause] = [clause] :=
    joinSearches_eq_self (List.length_filterMap_le searchOf? [clause])
  rw [conjunction, hjoin]

end join

/-! ### Merging everything -/

section merge
variable {merged more clause : Document} {clauses : List Document}

theorem isSimple_iff :
    isSimple clause = true ↔ clause ≠ [] ∧ ∀ e ∈ clause, isOperatorName e.1 = false := by
  simp [isSimple, keys]

theorem hasKey_eq_false_iff {key : String} : merged.hasKey key = false ↔ key ∉ merged.keys := by
  rw [← Bool.not_eq_true, hasKey, List.any_eq_true, keys, List.mem_map]
  simp only [beq_iff_eq]

theorem canMerge_nil (clause : Document) : canMerge [] clause = isSimple clause := by
  simp [canMerge, hasKey]

/-- What can be merged into a document can be merged into a part of it. -/
theorem canMerge_of_append (h : canMerge (merged ++ more) clause = true) :
    canMerge merged clause = true := by
  simp only [canMerge, hasKey, List.any_append, Bool.not_or, Bool.and_eq_true,
    List.all_eq_true] at h ⊢
  exact ⟨h.1, fun key hkey => (h.2 key hkey).1⟩

/-- A clause can be merged if it is simple and has no field of the merged document. -/
theorem canMerge_iff :
    canMerge merged clause = true ↔
      isSimple clause = true ∧ ∀ key ∈ merged.keys, key ∉ clause.keys := by
  rw [canMerge, Bool.and_eq_true, List.all_eq_true]
  simp only [Bool.not_eq_true', hasKey_eq_false_iff]
  exact and_congr_right fun _ =>
    ⟨fun h key hmerged hclause => h key hclause hmerged,
      fun h key hclause hmerged => h key hmerged hclause⟩

theorem canMerge_entry_iff {key : String} {value : Datum} :
    canMerge merged [(key, value)] = true ↔ isOperatorName key = false ∧ key ∉ merged.keys := by
  rw [canMerge, Bool.and_eq_true, isSimple_iff, ← hasKey_eq_false_iff]
  simp [keys]

/-- No two of the clauses have a field in common. -/
def AreDisjoint (clauses : List Document) : Prop :=
  clauses.Pairwise fun clause other => ∀ key ∈ clause.keys, key ∉ other.keys

theorem areDisjoint_append_cons :
    AreDisjoint ((merged ++ clause) :: clauses) ∧ (∀ key ∈ merged.keys, key ∉ clause.keys) ↔
      AreDisjoint (merged :: clause :: clauses) := by
  simp only [AreDisjoint, List.pairwise_cons, keys, List.map_append, List.mem_append,
    List.forall_mem_cons]
  grind

/-- Nothing stays apart exactly if all clauses are simple and have different fields. -/
theorem filterMap_gather_eq_nil_iff :
    (gather merged clauses).2.filterMap id = [] ↔
      (∀ clause ∈ clauses, isSimple clause = true) ∧ AreDisjoint (merged :: clauses) := by
  induction clauses generalizing merged with
  | nil => simp [gather, AreDisjoint]
  | cons clause clauses ih =>
      cases hmerge : canMerge merged clause with
      | true =>
          obtain ⟨hsimple, hkeys⟩ := canMerge_iff.mp hmerge
          rw [filterMap_gather_merge hmerge, ih, ← areDisjoint_append_cons, and_iff_left hkeys,
            List.forall_mem_cons, and_iff_right hsimple]
      | false =>
          rw [gather_apart hmerge, List.filterMap_cons, id]
          constructor
          · intro h
            cases h
          · rintro ⟨hsimple, hdisjoint⟩
            have hkeys := (areDisjoint_append_cons.mpr hdisjoint).2
            rw [canMerge_iff.mpr ⟨hsimple clause List.mem_cons_self, hkeys⟩] at hmerge
            cases hmerge

/-- Where nothing stays apart, all entries are merged in their order. -/
theorem gather_eq_flatten (h : (gather merged clauses).2.filterMap id = []) :
    (gather merged clauses).1 = merged ++ clauses.flatten := by
  induction clauses generalizing merged with
  | nil => simp [gather]
  | cons clause clauses ih =>
      cases hmerge : canMerge merged clause with
      | true =>
          rw [filterMap_gather_merge hmerge] at h
          rw [gather_merge hmerge, ih h, List.flatten_cons, List.append_assoc]
      | false =>
          rw [gather_apart hmerge] at h
          cases h

/-- Once something is merged, the merged document has its place. -/
theorem gather_places (hne : merged ≠ []) (clauses : List Document) :
    (gather merged clauses).2 = ((gather merged clauses).2.filterMap id).map some := by
  induction clauses generalizing merged with
  | nil => rfl
  | cons clause clauses ih =>
      cases hmerge : canMerge merged clause with
      | true =>
          have hempty : merged.isEmpty = false := by simpa using hne
          rw [gather_merge hmerge, hempty]
          exact ih (by simp [hne])
      | false =>
          rw [gather_apart hmerge, List.filterMap_cons, id, List.map_cons, ← ih hne]

theorem searchOf?_of_isSimple (h : isSimple clause = true) : searchOf? clause = none := by
  obtain ⟨-, hnames⟩ := isSimple_iff.mp h
  cases hsearch : searchOf? clause with
  | none => rfl
  | some search =>
      rw [searchOf?_eq_some_iff.mp hsearch] at hnames
      have htext : isOperatorName Op.text = false := hnames _ List.mem_cons_self
      cases htext

/-- Conditions on different fields are merged into one document, in their order. -/
theorem conjunction_disjoint (hne : clauses ≠ [])
    (hsimple : ∀ clause ∈ clauses, isSimple clause = true) (hdisjoint : AreDisjoint clauses) :
    conjunction clauses = clauses.flatten := by
  have hjoin : joinSearches clauses = clauses := joinSearches_eq_self (by
    rw [searches_eq_nil fun clause hclause => searchOf?_of_isSimple (hsimple clause hclause)]
    simp)
  match clauses, hne with
  | [clause], _ => rw [conjunction_singleton, List.flatten_singleton]
  | first :: second :: rest, _ =>
      obtain ⟨hfirst, hrest⟩ := List.forall_mem_cons.mp hsimple
      have hnone := filterMap_gather_eq_nil_iff.mpr ⟨hrest, hdisjoint⟩
      have hgather : gather [] (first :: second :: rest) =
          ((first :: second :: rest).flatten, [none]) := by
        rw [gather_merge (by rwa [canMerge_nil]), List.nil_append,
          gather_places (isSimple_iff.mp hfirst).1, hnone, gather_eq_flatten hnone]
        rfl
      rw [conjunction, hjoin]
      dsimp only
      rw [hgather]

/-- Conditions on different fields are joined into the document of all of them. -/
theorem conjunction_entries {document : Document} (hne : document ≠ [])
    (hnames : ∀ e ∈ document, isOperatorName e.1 = false) (hnodup : document.keys.Nodup) :
    conjunction (document.map fun e => [e]) = document := by
  rw [conjunction_disjoint (by simpa using hne)]
  · rw [← List.flatMap_def]
    exact List.flatMap_singleton' document
  · exact List.forall_mem_map.mpr fun e he => isSimple_iff.mpr ⟨by simp, by simpa using hnames e he⟩
  · rw [AreDisjoint, List.pairwise_map]
    rw [keys, List.nodup_iff_pairwise_ne, List.pairwise_map] at hnodup
    exact hnodup.imp fun hne => by simpa [keys] using hne

end merge

/-! ### Merging nothing -/

/-- No clause is merged with another: none of those behind the first simple clause can be merged
into it. -/
inductive StaysApart : List Document → Prop
  | nil : StaysApart []
  | other {clause : Document} {clauses : List Document} (h : isSimple clause = false)
      (hrest : StaysApart clauses) : StaysApart (clause :: clauses)
  | first {clause : Document} {clauses : List Document} (h : isSimple clause = true)
      (hrest : ∀ later ∈ clauses, canMerge clause later = false) : StaysApart (clause :: clauses)

section apart
variable {merged clause : Document} {clauses : List Document}

theorem gather_of_not_canMerge (h : ∀ clause ∈ clauses, canMerge merged clause = false) :
    gather merged clauses = (merged, clauses.map some) := by
  induction clauses with
  | nil => rfl
  | cons clause clauses ih =>
      obtain ⟨hclause, hrest⟩ := List.forall_mem_cons.mp h
      rw [gather_apart hclause, ih hrest, List.map_cons]

/-- Every clause is merged or stays apart, and a clause that is merged has an entry. -/
theorem length_le_gather (merged : Document) (clauses : List Document) :
    merged.length + clauses.length ≤
      (gather merged clauses).1.length + ((gather merged clauses).2.filterMap id).length := by
  induction clauses generalizing merged with
  | nil => simp [gather]
  | cons clause clauses ih =>
      cases hmerge : canMerge merged clause with
      | true =>
          have hpos := List.length_pos_iff.mpr (ne_nil_of_canMerge hmerge)
          have hrest := ih (merged ++ clause)
          rw [List.length_append] at hrest
          rw [filterMap_gather_merge hmerge, gather_merge hmerge, List.length_cons]
          dsimp only
          omega
      | false =>
          have hrest := ih merged
          rw [gather_apart hmerge, List.filterMap_cons, id, List.length_cons, List.length_cons]
          dsimp only
          omega

/-- What stays apart could not be merged at its turn, and still less in the end. -/
theorem canMerge_gather (h : clause ∈ (gather merged clauses).2.filterMap id) :
    canMerge (gather merged clauses).1 clause = false := by
  induction clauses generalizing merged with
  | nil => cases h
  | cons first clauses ih =>
      cases hmerge : canMerge merged first with
      | true =>
          rw [filterMap_gather_merge hmerge] at h
          rw [gather_merge hmerge]
          exact ih h
      | false =>
          rw [gather_apart hmerge] at h ⊢
          rcases List.mem_cons.mp h with rfl | h
          · obtain ⟨more, hmore⟩ := gather_extends merged clauses
            rw [← Bool.not_eq_true]
            intro hlater
            rw [hmore] at hlater
            rw [canMerge_of_append hlater] at hmerge
            cases hmerge
          · exact ih h

theorem isSimple_append (hmerged : isSimple merged = true) (hclause : isSimple clause = true) :
    isSimple (merged ++ clause) = true := by
  rw [isSimple_iff] at hmerged hclause ⊢
  exact ⟨by simp [hmerged.1], List.forall_mem_append.mpr ⟨hmerged.2, hclause.2⟩⟩

theorem isSimple_gather (h : isSimple merged = true) :
    isSimple (gather merged clauses).1 = true := by
  refine gather_keeps (Q := fun document => isSimple document = true) ?_ h
  exact fun _ _ _ hmerge hsimple => isSimple_append hsimple (canMerge_iff.mp hmerge).1

/-- What merging leaves cannot be merged any further. -/
theorem gather_staysApart (clauses : List Document) :
    StaysApart ((gather [] clauses).2.map fun place => place.getD (gather [] clauses).1) := by
  induction clauses with
  | nil => exact .nil
  | cons clause clauses ih =>
      cases hmerge : canMerge [] clause with
      | true =>
          have hsimple : isSimple clause = true := by rwa [canMerge_nil] at hmerge
          have hplaces := gather_places (ne_nil_of_canMerge hmerge) clauses
          rw [gather_merge hmerge, List.nil_append]
          refine .first (isSimple_gather hsimple) fun later hlater => canMerge_gather ?_
          rw [hplaces, List.map_map] at hlater
          simpa using hlater
      | false =>
          rw [gather_apart hmerge]
          exact .other (by rwa [canMerge_nil] at hmerge) ih

theorem StaysApart.gather_eq (h : StaysApart clauses) :
    ((gather [] clauses).2.map fun place => place.getD (gather [] clauses).1) = clauses := by
  induction h with
  | nil => rfl
  | other h _ ih =>
      rw [gather_apart (by rwa [canMerge_nil])]
      exact congrArg (List.cons _) ih
  | first h hrest =>
      rw [gather_merge (by rwa [canMerge_nil]), List.nil_append, gather_of_not_canMerge hrest]
      simp [Function.comp_def]

/-- Clauses stay apart under a function that leaves simple clauses alone and makes no other clause
simple. -/
theorem StaysApart.map {f : Document → Document} (h : StaysApart clauses)
    (hsimple : ∀ clause ∈ clauses, isSimple clause = true → f clause = clause)
    (hother : ∀ clause ∈ clauses, isSimple clause = false → isSimple (f clause) = false) :
    StaysApart (clauses.map f) := by
  induction h with
  | nil => exact .nil
  | other h _ ih =>
      obtain ⟨-, hsimple⟩ := List.forall_mem_cons.mp hsimple
      obtain ⟨hclause, hother⟩ := List.forall_mem_cons.mp hother
      exact .other (hclause h) (ih hsimple hother)
  | @first clause clauses h hrest =>
      obtain ⟨hclause, hsimple⟩ := List.forall_mem_cons.mp hsimple
      rw [List.map_cons, hclause h]
      refine .first h (List.forall_mem_map.mpr fun later hlater => ?_)
      cases hs : isSimple later with
      | true =>
          rw [hsimple later hlater hs]
          exact hrest later hlater
      | false => rw [canMerge, hother later (List.mem_cons_of_mem _ hlater) hs, Bool.false_and]

/-- Clauses that stay apart are the clauses of their conjunction. -/
theorem StaysApart.conjunction_eq (h : StaysApart clauses) (two : 2 ≤ clauses.length)
    (one_text : (searches clauses).length ≤ 1) :
    conjunction clauses = entry Op.and (Datum.ofDocuments clauses) := by
  have hjoin := joinSearches_eq_self one_text
  have happart := h.gather_eq
  have hne : clauses ≠ [] := List.ne_nil_of_length_pos (by omega)
  rcases conjunction_cases hne with
    ⟨clause, hc, -⟩ | ⟨merged, hg, -⟩ | ⟨merged, places, hg, -, heq⟩
  · rw [hjoin] at hc
    rw [hc] at two
    simp at two
  · rw [hjoin] at hg
    rw [hg] at happart
    rw [← happart] at two
    simp at two
  · rw [hjoin] at hg
    rw [hg] at happart
    rw [heq, happart]

end apart

end QueryFilter
