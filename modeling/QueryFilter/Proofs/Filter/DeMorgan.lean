import QueryFilter.Proofs.Filter.Grouping

/-! # De Morgan's laws

Negation is pushed down to the fields, so a query and its negation follow De Morgan's laws.  They do
so to the letter: `Query.compile_deMorgan` says of which queries the filters on both sides are the
same document, or the errors the same error.

* The negation of a disjunction is the conjunction of the negations (`negate_disjunction`), unless
  the disjunction has become one text search.
* The negation of a conjunction is the disjunction of the negations (`negate_conjunction`), if its
  clauses are conditions that are all merged, or are only two.  Of three conditions of which two are
  on one field, the conjunction merges the other two, and its negation keeps them together. -/

namespace QueryFilter

open Document

/-! ### Negating joined clauses -/

section clauses
variable {clauses : List Document}

theorem disjunction_eq_or (two : 2 ≤ clauses.length)
    (h : ∃ clause ∈ clauses, searchOf? clause = none) :
    disjunction clauses = entry Op.or (Datum.ofDocuments clauses) := by
  obtain ⟨other, hother, hnone⟩ := h
  have hall : ¬(clauses.all fun clause => (searchOf? clause).isSome) = true := by
    intro hall
    have hsome := List.all_eq_true.mp hall other hother
    rw [hnone] at hsome
    cases hsome
  match clauses, two with
  | first :: second :: rest, _ =>
      rw [disjunction, if_neg hall]
      simp

theorem negate_disjunction (h : ∃ clause ∈ clauses, searchOf? clause = none) :
    negate (disjunction clauses) = conjunction (clauses.map negate) := by
  match clauses, h with
  | [clause], _ => rw [disjunction, List.map_singleton, conjunction_singleton]
  | first :: second :: rest, h => rw [disjunction_eq_or (by simp) h, negate_or]

end clauses

section entries
variable {entries : List (String × Datum)}

theorem disjunction_negated_eq (hnames : ∀ e ∈ entries, isOperatorName e.1 = false)
    (hconditions : ∀ e ∈ entries, e.2.IsCondition) :
    (entries.map fun e => negate [e]) = entries.map fun e => entry e.1 (negateValue e.2) :=
  List.map_congr_left fun e he => negateEntry_field (hnames e he) (hconditions e he)

/-- Two conditions on one field stay apart. -/
theorem conjunction_pair {e f : String × Datum} (he : isOperatorName e.1 = false)
    (hkey : e.1 = f.1) :
    conjunction [[e], [f]] = entry Op.and (Datum.ofDocuments [[e], [f]]) := by
  have hf : isOperatorName f.1 = false := hkey ▸ he
  have happart : StaysApart [[e], [f]] := by
    refine .first (isSimple_iff.mpr ⟨by simp, by simpa using he⟩) ?_
    rw [List.forall_mem_singleton, ← Bool.not_eq_true, canMerge_entry_iff]
    rintro ⟨-, hnew⟩
    exact hnew (by simp [keys, hkey])
  have hnone : ∀ clause ∈ [[e], [f]], searchOf? clause = none :=
    List.forall_mem_cons.mpr ⟨searchOf?_field he e.2,
      List.forall_mem_singleton.mpr (searchOf?_field hf f.2)⟩
  exact happart.conjunction_eq (by simp) (by rw [searches_eq_nil hnone]; simp)

/-- The negation of conditions that are all on different fields, or only two. -/
theorem negate_conjunction (hne : entries ≠ [])
    (hnames : ∀ e ∈ entries, isOperatorName e.1 = false)
    (hconditions : ∀ e ∈ entries, e.2.IsCondition)
    (h : entries.length = 2 ∨ (entries.map (·.1)).Nodup) :
    negate (conjunction (entries.map fun e => [e])) =
      disjunction (entries.map fun e => negate [e]) := by
  by_cases hnodup : (entries.map (·.1)).Nodup
  · rw [conjunction_entries hne hnames hnodup, disjunction_negated_eq hnames hconditions]
    exact negate_fields hne ⟨hnodup, hnames, hconditions⟩
  · obtain ⟨e, f, rfl⟩ := List.length_eq_two.mp (h.resolve_right hnodup)
    have hkey : e.1 = f.1 := by simpa using hnodup
    have he := hnames e (by simp)
    have hother : searchOf? (negate [e]) = none := by
      rw [show negate [e] = _ from negateEntry_field he (hconditions e (by simp))]
      exact searchOf?_field he _
    rw [List.map_cons, List.map_singleton, conjunction_pair he hkey, negate_and]
    exact (disjunction_eq_or (by simp) ⟨_, List.mem_cons_self, hother⟩).symm

end entries

/-! ### Clauses of negated operands -/

section operands
variable {options : Options}

/-- Branches that are negated one by one. -/
theorem Branch.clauses_map_not_group (branches : List Branch) :
    Branch.clauses options (branches.map fun branch => .not (.group [branch])) =
      (Query.clauses options branches).map (List.map negate) := by
  induction branches with
  | nil => rfl
  | cons branch branches ih =>
      rw [List.map_cons, Branch.clauses, Operand.clause_not (by simp), Operand.clause_group_branch,
        ih, Query.clauses]
      cases Branch.clauses options branch with
      | error e => rfl
      | ok clauses =>
          cases Query.clauses options branches with
          | error e => rfl
          | ok documents => rfl

/-- Operands that are negated one by one, each in a branch of its own. -/
theorem Query.clauses_map_not {α : Type} {f : α → Operand} {xs : List α}
    (h : ∀ x ∈ xs, (Operand.not (f x)).clause options = ((f x).clause options).map negate) :
    Query.clauses options (xs.map fun x => [.not (f x)]) =
      (Branch.clauses options (xs.map f)).map (List.map negate) := by
  induction xs with
  | nil => rfl
  | cons x xs ih =>
      obtain ⟨hx, hxs⟩ := List.forall_mem_cons.mp h
      rw [List.map_cons, List.map_cons, Query.clauses, Branch.clauses, Branch.clauses,
        Branch.clauses, hx, ih hxs]
      cases (f x).clause options with
      | error e => rfl
      | ok clause =>
          have hsingle : conjunction [negate clause] = negate clause := conjunction_singleton _
          cases Branch.clauses options (xs.map f) with
          | error e => rfl
          | ok clauses =>
              show Except.ok (conjunction [negate clause] :: clauses.map negate) = _
              rw [hsingle]
              rfl

/-- Fields whose values are not split have entries for clauses, each under the name of its field. -/
theorem Branch.clauses_fields {fields : List (Path × Value)}
    (hsplit : ∀ field ∈ fields, ¬options.Splits field.2) {clauses : List Document}
    (h : Branch.clauses options (fields.map fun field => .field field.1 field.2) = .ok clauses) :
    ∃ entries : List (String × Datum), clauses = (entries.map fun e => [e]) ∧
      (entries.map (·.1)) = (fields.map fun field => options.fieldName field.1) ∧
      ∀ e ∈ entries, e.2.IsLeaf := by
  induction fields generalizing clauses with
  | nil =>
      cases h
      exact ⟨[], rfl, rfl, by simp⟩
  | cons field fields ih =>
      obtain ⟨hfield, hrest⟩ := List.forall_mem_cons.mp hsplit
      rw [List.map_cons, Branch.clauses, Operand.clause, Options.valueClause,
        Options.splitWords?_eq_none_iff.mpr hfield] at h
      split at h
      · cases h
      · next clause hclause =>
        obtain ⟨document, hdocument, rfl⟩ := map_eq_ok_iff.mp hclause
        obtain ⟨clauses', hclauses, rfl⟩ := map_eq_ok_iff.mp h
        obtain ⟨leaf, rfl, hleaf⟩ := Options.fieldClause_eq_ok hdocument
        obtain ⟨entries, rfl, hkeys, hleaves⟩ := ih hrest hclauses
        refine ⟨(options.fieldName field.1, leaf) :: entries, rfl, by simp [hkeys], ?_⟩
        exact List.forall_mem_cons.mpr ⟨hleaf, hleaves⟩

end operands

/-! ### Queries -/

section queries
variable {options : Options}

theorem Query.compile_not_group (query : Query) :
    Query.compile options [[.not (.group query)]] = (Query.compile options query).map negate := by
  rw [Query.compile_single, Operand.clause_not (by simp), ← Query.compile_eq]

theorem Query.compile_branch (branch : Branch) :
    Query.compile options [branch] = (Branch.clauses options branch).map conjunction := by
  rw [Query.compile_eq, Operand.clause_group_branch]

/-- A branch whose filter is no text search gives a clause that is none. -/
theorem Query.exists_searchOf?_eq_none {query : Query} {clauses : List Document}
    (h : ¬∀ branch ∈ query, ∃ search, Query.compile options [branch] = .ok (textSearch search))
    (hclauses : Query.clauses options query = .ok clauses) :
    ∃ clause ∈ clauses, searchOf? clause = none := by
  have hfilters : List.Forall₂ (fun branch clause => Query.compile options [branch] = .ok clause)
      query clauses := by
    refine Query.clauses_forall₂ (fun branch _ operands hoperands => ?_) hclauses
    rw [Query.compile_branch, hoperands]
    rfl
  by_contra hsome
  have hall : ∀ clause ∈ clauses, searchOf? clause ≠ none := fun clause hclause hnone =>
    hsome ⟨clause, hclause, hnone⟩
  apply h
  clear h hclauses hsome
  induction hfilters with
  | nil => simp
  | cons hfilter _ ih =>
      obtain ⟨hclause, hrest⟩ := List.forall_mem_cons.mp hall
      obtain ⟨search, hsearch⟩ := Option.ne_none_iff_exists'.mp hclause
      rw [searchOf?_eq_some_iff.mp hsearch] at hfilter
      exact List.forall_mem_cons.mpr ⟨⟨search, hfilter⟩, ih hrest⟩

theorem Query.compile_not_or {branches : List Branch}
    (h : ¬∀ branch ∈ branches, ∃ search,
      Query.compile options [branch] = .ok (textSearch search)) :
    Query.compile options [[.not (.group branches)]] =
      Query.compile options [branches.map fun branch => .not (.group [branch])] := by
  rw [Query.compile_not_group, Query.compile_branch, Branch.clauses_map_not_group, Query.compile]
  cases hclauses : Query.clauses options branches with
  | error e => rfl
  | ok clauses =>
      exact congrArg Except.ok (negate_disjunction (Query.exists_searchOf?_eq_none h hclauses))

theorem Query.compile_not_and {fields : List (Path × Value)} (hne : fields ≠ [])
    (hsplit : ∀ field ∈ fields, ¬options.Splits field.2)
    (hnames : ∀ field ∈ fields, isOperatorName (options.fieldName field.1) = false)
    (h : fields.length = 2 ∨ (fields.map fun field => options.fieldName field.1).Nodup) :
    Query.compile options [[.not (.group [fields.map fun field => .field field.1 field.2])]] =
      Query.compile options (fields.map fun field => [.not (.field field.1 field.2)]) := by
  have hnot : ∀ field ∈ fields, (Operand.not (.field field.1 field.2)).clause options =
      ((Operand.field field.1 field.2).clause options).map negate := by
    intro field hfield
    refine Operand.clause_not_of_not_splits fun path value heq => ?_
    cases heq
    exact hsplit field hfield
  rw [Query.compile_not_group, Query.compile_branch, Query.compile, Query.clauses_map_not hnot]
  cases hclauses : Branch.clauses options (fields.map fun field => .field field.1 field.2) with
  | error e => rfl
  | ok clauses =>
      -- Each clause is one entry, with the name of its field.
      obtain ⟨entries, rfl, hkeys, hleaves⟩ := Branch.clauses_fields hsplit hclauses
      have hlength : entries.length = fields.length := by
        simpa using congrArg List.length hkeys
      have hne : entries ≠ [] := by
        rintro rfl
        exact hne (List.eq_nil_of_length_eq_zero hlength.symm)
      have hnames : ∀ e ∈ entries, isOperatorName e.1 = false := by
        intro e he
        have hkey : e.1 ∈ entries.map (·.1) := List.mem_map_of_mem he
        rw [hkeys] at hkey
        obtain ⟨field, hfield, hname⟩ := List.mem_map.mp hkey
        rw [← hname]
        exact hnames field hfield
      rw [← hlength, ← hkeys] at h
      have hnegate := negate_conjunction hne hnames (fun e he => .plain (hleaves e he)) h
      show Except.ok _ = Except.ok (disjunction ((entries.map fun e => [e]).map negate))
      rw [List.map_map]
      exact congrArg Except.ok hnegate

/-- **De Morgan's laws for filters.**  The negation of a disjunction has the filter of the
conjunction of the negations, if the disjunction does not consist of text searches.  The negation of
a conjunction of fields has the filter of the disjunction of their negations, if there are two of
them or no name comes twice. -/
theorem Query.compile_deMorgan (options : Options) :
    (∀ branches : List Branch,
      (¬∀ branch ∈ branches, ∃ search, Query.compile options [branch] = .ok (textSearch search)) →
      Query.compile options [[.not (.group branches)]] =
        Query.compile options [branches.map fun branch => .not (.group [branch])]) ∧
    ∀ fields : List (Path × Value), fields ≠ [] →
      (∀ field ∈ fields, ¬options.Splits field.2) →
      (∀ field ∈ fields, isOperatorName (options.fieldName field.1) = false) →
      (fields.length = 2 ∨ (fields.map fun field => options.fieldName field.1).Nodup) →
      Query.compile options [[.not (.group [fields.map fun field => .field field.1 field.2])]] =
        Query.compile options (fields.map fun field => [.not (.field field.1 field.2)]) := by
  constructor
  · intro branches
    exact Query.compile_not_or
  · intro fields
    exact Query.compile_not_and

end queries

/-- A text search beside fields in a disjunction, and two names that become one. -/
theorem Query.compile_deMorgan_renamed :
    ∃ (options : Options) (branches : List Branch) (fields : List (Path × Value))
      (document other : Document),
      options = { renameIdentifiers := true } ∧
      branches = [[.text (.words ["foo"])],
        [.field ⟨["a"]⟩ (.words ["true"]), .field ⟨["b"]⟩ (.quoted .double "x")]] ∧
      fields = [(⟨["id"]⟩, .quoted .double "x"), (⟨["_id"]⟩, .words ["y"])] ∧
      document = entry Op.and (Datum.ofDocuments [textSearch "-foo",
        entry Op.or (Datum.ofDocuments [entry "a" (.document (entry Op.ne (.bool true))),
          entry "b" (.document (entry Op.ne (.string "x")))])]) ∧
      other = entry Op.or (Datum.ofDocuments
        [entry "_id" (.document (entry Op.ne (.string "x"))),
          entry "_id" (.document (entry Op.ne (.string "y")))]) ∧
      Query.compile options [[.not (.group branches)]] = .ok document ∧
      Query.compile options [branches.map fun branch => .not (.group [branch])] = .ok document ∧
      Query.compile options [[.not (.group [fields.map fun field => .field field.1 field.2])]] =
        .ok other ∧
      Query.compile options (fields.map fun field => [.not (.field field.1 field.2)]) =
        .ok other := by
  have hmerged : Query.compile { renameIdentifiers := true }
      [[.field ⟨["a"]⟩ (.words ["true"]), .field ⟨["b"]⟩ (.quoted .double "x")]] =
        .ok [("a", .bool true), ("b", .string "x")] := by
    rfl
  have hother : ¬∀ branch ∈ [[.text (.words ["foo"])],
      [.field ⟨["a"]⟩ (.words ["true"]), .field ⟨["b"]⟩ (.quoted .double "x")]],
        ∃ search, Query.compile { renameIdentifiers := true } [branch] =
          .ok (textSearch search) := by
    intro h
    obtain ⟨search, hsearch⟩ := h _ (List.mem_cons_of_mem _ List.mem_cons_self)
    simp [hmerged, textSearch, entry] at hsearch
  have hor : Query.compile { renameIdentifiers := true } [[.not (.group [[.text (.words ["foo"])],
      [.field ⟨["a"]⟩ (.words ["true"]), .field ⟨["b"]⟩ (.quoted .double "x")]])]] =
        .ok (entry Op.and (Datum.ofDocuments [textSearch "-foo",
          entry Op.or (Datum.ofDocuments [entry "a" (.document (entry Op.ne (.bool true))),
            entry "b" (.document (entry Op.ne (.string "x")))])])) := by
    cbv
  have hand : Query.compile { renameIdentifiers := true } [[.not (.group
      [[.field ⟨["id"]⟩ (.quoted .double "x"), .field ⟨["_id"]⟩ (.words ["y"])]])]] =
        .ok (entry Op.or (Datum.ofDocuments
          [entry "_id" (.document (entry Op.ne (.string "x"))),
            entry "_id" (.document (entry Op.ne (.string "y")))])) := by
    cbv
  obtain ⟨hlawOr, hlawAnd⟩ := Query.compile_deMorgan { renameIdentifiers := true }
  refine ⟨_, _, _, _, _, rfl, rfl, rfl, rfl, rfl, hor, (hlawOr _ hother).symm.trans hor, hand, ?_⟩
  refine (hlawAnd _ (by simp) ?_ ?_ (.inl rfl)).symm.trans hand
  · simp [Options.Splits]
  · decide

end QueryFilter
