import QueryFilter.Proofs.Filter.Output

/-! # What filters mean

A valuation says which conditions hold, without regard to what they ask.  Under a valuation a filter
is true or false (`Document.holds`), and so is a query (`Query.holds`).  The two agree:
`Query.compile_holds`.

Merging clauses is sound because the entries of a document hold together (`gather_holds`), and
negation because it follows De Morgan's laws down to the conditions (`negate_holds`).  A text search
is no condition on a field, so there are none here. -/

namespace QueryFilter

open Document

/-! ### Truth values -/

/-- Does a field satisfy a condition? -/
abbrev Valuation := String → Datum → Bool

mutual

/-- Does the entry with this key and this value hold? -/
def Datum.holdsAt (ρ : Valuation) (key : String) : Datum → Bool
  | .array items =>
    if key = Op.and then (Datum.itemsHold ρ items).all id
    else if key = Op.or then (Datum.itemsHold ρ items).any id
    else ρ key (.array items)
  | .document [(op, value)] =>
    if op = Op.ne then !ρ key value else ρ key (.document [(op, value)])
  | value => ρ key value

/-- The truth values of the documents in an array. -/
def Datum.itemsHold (ρ : Valuation) : List Datum → List Bool
  | [] => []
  | .document entries :: items => Document.holds ρ entries :: Datum.itemsHold ρ items
  | _ :: items => Datum.itemsHold ρ items

/-- Do all entries of the document hold? -/
def Document.holds (ρ : Valuation) : Document → Bool
  | [] => true
  | (key, value) :: entries => value.holdsAt ρ key && Document.holds ρ entries

end

/-- Does the only entry of the clause of a field hold? -/
def Options.fieldHolds (options : Options) (ρ : Valuation) (path : Path) (value : Value) : Bool :=
  match options.fieldClause path value with
  | .ok [(name, leaf)] => ρ name leaf
  | _ => false

/-- Does one of the default fields match the text? -/
def Options.textHolds (options : Options) (ρ : Valuation) (text : FreeText) : Bool :=
  options.defaultFields.any fun field => ρ field (.document text.condition)

mutual

/-- Does the operand hold? -/
def Operand.holds (options : Options) (ρ : Valuation) : Operand → Bool
  | .field path value => options.fieldHolds ρ path value
  | .text text => options.textHolds ρ text
  | .not operand => !operand.holds options ρ
  | .group branches => Query.holds options ρ branches

/-- Do all operands of the branch hold? -/
def Branch.holds (options : Options) (ρ : Valuation) : Branch → Bool
  | [] => true
  | operand :: operands => operand.holds options ρ && Branch.holds options ρ operands

/-- Does one of the branches hold? -/
def Query.holds (options : Options) (ρ : Valuation) : Query → Bool
  | [] => false
  | branch :: branches => Branch.holds options ρ branch || Query.holds options ρ branches

end

section operations
variable (ρ : Valuation)

/-! ### Documents -/

theorem holds_entry (key : String) (value : Datum) :
    (entry key value).holds ρ = value.holdsAt ρ key := by
  rw [entry, Document.holds, Document.holds, Bool.and_true]

theorem holds_eq_all (document : Document) :
    document.holds ρ = document.all fun e => e.2.holdsAt ρ e.1 := by
  induction document with
  | nil => rfl
  | cons e document ih => rw [Document.holds, ih, List.all_cons]

theorem holds_append (document other : Document) :
    Document.holds ρ (document ++ other) = (document.holds ρ && other.holds ρ) := by
  rw [holds_eq_all, holds_eq_all, holds_eq_all, List.all_append]

theorem itemsHold_documents (documents : List Document) :
    Datum.itemsHold ρ (documents.map .document) = documents.map (Document.holds ρ) := by
  induction documents with
  | nil => rfl
  | cons document documents ih => rw [List.map_cons, Datum.itemsHold, ih, List.map_cons]

theorem holds_and (clauses : List Document) :
    (entry Op.and (Datum.ofDocuments clauses)).holds ρ = clauses.all (Document.holds ρ) := by
  rw [holds_entry, Datum.ofDocuments, Datum.holdsAt, if_pos rfl, itemsHold_documents, List.all_map]
  rfl

theorem holds_or (clauses : List Document) :
    (entry Op.or (Datum.ofDocuments clauses)).holds ρ = clauses.any (Document.holds ρ) := by
  rw [holds_entry, Datum.ofDocuments, Datum.holdsAt, if_neg (by decide), if_pos rfl,
    itemsHold_documents, List.any_map]
  rfl

theorem Datum.IsLeaf.holdsAt {leaf : Datum} (h : leaf.IsLeaf) (key : String) :
    leaf.holdsAt ρ key = ρ key leaf := by
  cases h with
  | compared hkey =>
      rw [Datum.holdsAt, if_neg]
      rintro rfl
      exact absurd hkey (by decide)
  | present => rw [Datum.holdsAt, if_neg (by decide)]
  | regex => rw [Datum.holdsAt, if_neg (by decide)]
  | _ => rw [Datum.holdsAt] <;> simp

theorem holdsAt_negated (key : String) (leaf : Datum) :
    (Datum.document (entry Op.ne leaf)).holdsAt ρ key = !ρ key leaf := by
  rw [entry, Datum.holdsAt, if_pos rfl]

theorem holdsAt_negateValue {condition : Datum} (h : condition.IsCondition) (key : String) :
    (negateValue condition).holdsAt ρ key = !condition.holdsAt ρ key := by
  cases h with
  | plain h => rw [h.negateValue_eq, holdsAt_negated, h.holdsAt]
  | negated h => rw [negateValue_negated, holdsAt_negated, h.holdsAt, Bool.not_not]

/-! ### Conjunctions, disjunctions and negations -/

/-- Merging keeps the meaning of the merged document and the clauses together. -/
theorem gather_holds (merged : Document) (clauses : List Document) :
    ((gather merged clauses).1.holds ρ &&
        ((gather merged clauses).2.filterMap id).all (Document.holds ρ)) =
      (merged.holds ρ && clauses.all (Document.holds ρ)) := by
  induction clauses generalizing merged with
  | nil => rfl
  | cons clause clauses ih =>
      rw [List.all_cons]
      cases hmerge : canMerge merged clause with
      | true =>
          rw [filterMap_gather_merge hmerge, gather_merge hmerge, ih, holds_append, Bool.and_assoc]
      | false =>
          rw [gather_apart hmerge, List.filterMap_cons, id, List.all_cons, Bool.and_left_comm, ih,
            Bool.and_left_comm]

theorem all_places {places : List (Option Document)} {merged : Document}
    (h : none ∈ places ∨ merged.holds ρ = true) :
    (places.map fun place => place.getD merged).all (Document.holds ρ) =
      (merged.holds ρ && (places.filterMap id).all (Document.holds ρ)) := by
  rw [Bool.eq_iff_iff, Bool.and_eq_true, List.all_eq_true, List.all_eq_true,
    List.forall_mem_map]
  constructor
  · intro hall
    refine ⟨h.elim (hall none) id, fun clause hclause => ?_⟩
    obtain ⟨place, hplace, rfl⟩ := List.mem_filterMap.mp hclause
    exact hall _ hplace
  · rintro ⟨hmerged, hapart⟩ place hplace
    cases place with
    | none => exact hmerged
    | some clause => exact hapart clause (List.mem_filterMap.mpr ⟨_, hplace, rfl⟩)

section clauses
variable {clauses : List Document}

theorem conjunction_holds (hne : clauses ≠ []) (h : ∀ clause ∈ clauses, searchOf? clause = none) :
    (conjunction clauses).holds ρ = clauses.all (Document.holds ρ) := by
  have hjoin : joinSearches clauses = clauses := placeSearch_of_none h
  have hgather := gather_holds ρ [] clauses
  rw [show Document.holds ρ [] = true from rfl, Bool.true_and] at hgather
  rcases conjunction_cases hne with
    ⟨clause, hc, heq⟩ | ⟨merged, hg, heq⟩ | ⟨merged, places, hg, -, heq⟩
  · rw [hjoin] at hc
    rw [heq, hc, List.all_cons, List.all_nil, Bool.and_true]
  · rw [hjoin] at hg
    rw [heq, ← hgather, hg, List.filterMap_cons, id, List.filterMap_nil, List.all_nil,
      Bool.and_true]
  · rw [hjoin] at hg
    rw [heq, holds_and, ← hgather, hg]
    apply all_places
    by_cases hnone : none ∈ places
    · exact .inl hnone
    · have hnothing := gather_nil_of_none_not_mem (by rw [hg]; exact hnone)
      rw [hg, Prod.mk.injEq] at hnothing
      rw [hnothing.1]
      exact .inr rfl

theorem disjunction_holds (hne : clauses ≠ []) (h : ∀ clause ∈ clauses, searchOf? clause = none) :
    (disjunction clauses).holds ρ = clauses.any (Document.holds ρ) := by
  match clauses, hne, h with
  | [clause], _, _ => rw [disjunction, List.any_cons, List.any_nil, Bool.or_false]
  | first :: second :: rest, _, h =>
      rw [disjunction, if_neg, holds_or]
      · simp [h first (by simp)]
      · simp

section deMorgan
variable {α : Type} {xs : List α} {f : α → Document} {p : α → Bool}

theorem any_holds_map (h : ∀ x ∈ xs, (f x).holds ρ = !p x) :
    (xs.map f).any (Document.holds ρ) = !xs.all p := by
  induction xs with
  | nil => rfl
  | cons x xs ih =>
      obtain ⟨hx, hxs⟩ := List.forall_mem_cons.mp h
      rw [List.map_cons, List.any_cons, hx, ih hxs, List.all_cons, Bool.not_and]

theorem all_holds_map (h : ∀ x ∈ xs, (f x).holds ρ = !p x) :
    (xs.map f).all (Document.holds ρ) = !xs.any p := by
  induction xs with
  | nil => rfl
  | cons x xs ih =>
      obtain ⟨hx, hxs⟩ := List.forall_mem_cons.mp h
      rw [List.map_cons, List.all_cons, hx, ih hxs, List.any_cons, Bool.not_or]

end deMorgan

/-- The negation of a clause holds exactly if the clause does not. -/
theorem negate_holds {document : Document} (h : IsClause False document) :
    (negate document).holds ρ = !document.holds ρ := by
  have hnone : ∀ {clauses : List Document}, (∀ clause ∈ clauses, IsClause False clause) →
      ∀ clause ∈ clauses, searchOf? clause = none := fun each clause hclause =>
    (each clause hclause).searchOf?_eq_none
  induction h with
  | text allowed => exact allowed.elim
  | and two each one_text ih => rw [negate_and, holds_or, holds_and, any_holds_map ρ ih]
  | @or clauses two each some_other ih =>
      have hclauses : ∀ clause ∈ clauses.map negate, IsClause False clause :=
        List.forall_mem_map.mpr fun clause hclause => (each clause hclause).negate
      have hne : clauses.map negate ≠ [] :=
        List.ne_nil_of_length_pos (by rw [List.length_map]; omega)
      rw [negate_or, conjunction_holds ρ hne (hnone hclauses), holds_or, all_holds_map ρ ih]
  | @fields document some_field h =>
      have hne : document.map (fun e => entry e.1 (negateValue e.2)) ≠ [] := by
        intro hnil
        exact some_field (List.map_eq_nil_iff.mp hnil)
      rw [negate_fields some_field h,
        disjunction_holds ρ hne (hnone (h.negated_isClause False)), holds_eq_all]
      refine any_holds_map ρ fun e he => ?_
      rw [holds_entry, holdsAt_negateValue ρ (h.conditions e he)]

end clauses

end operations

/-! ### Queries -/

section queries
variable {options : Options} (ρ : Valuation)

theorem Branch.holds_eq_all (branch : Branch) :
    branch.holds options ρ = branch.all (Operand.holds options ρ) := by
  induction branch with
  | nil => rfl
  | cons operand branch ih => rw [Branch.holds, ih, List.all_cons]

theorem Query.holds_eq_any (query : Query) :
    query.holds options ρ = query.any (Branch.holds options ρ) := by
  induction query with
  | nil => rfl
  | cons branch query ih => rw [Query.holds, ih, List.any_cons]

theorem fieldClause_holds {path : Path} {value : Value} {clause : Document}
    (h : options.fieldClause path value = .ok clause) :
    clause.holds ρ = options.fieldHolds ρ path value := by
  obtain ⟨leaf, rfl, hleaf⟩ := Options.fieldClause_eq_ok h
  rw [holds_entry, hleaf.holdsAt, Options.fieldHolds, h]
  rfl

theorem textClause_holds (hne : options.defaultFields ≠ []) (text : FreeText) :
    (options.textClause text).holds ρ = options.textHolds ρ text := by
  have hentry : ∀ field, (entry field (.document text.condition)).holds ρ =
      ρ field (.document text.condition) := by
    intro field
    rw [holds_entry, text.condition_isLeaf.holdsAt]
  unfold Options.textClause Options.textHolds
  match hfields : options.defaultFields with
  | [] => exact absurd hfields hne
  | [field] => rw [hentry, List.any_cons, List.any_nil, Bool.or_false]
  | first :: second :: rest =>
      rw [holds_or, List.any_map]
      congr 1
      funext field
      exact hentry field

theorem valueClause_phrase (hphrase : options.multiWordValues = .phrase) (negated : Bool)
    (path : Path) (value : Value) :
    options.valueClause negated path value =
      (options.fieldClause path value).map fun clause =>
        if negated then negate clause else clause := by
  rw [Options.valueClause, Options.splitWords?_eq_none hphrase]

/-- Where words are not split off, every operand is negated by negating its clause. -/
theorem Operand.clause_not_phrase (hphrase : options.multiWordValues = .phrase)
    (operand : Operand) :
    (Operand.not operand).clause options = (operand.clause options).map negate := by
  by_cases hfield : ∃ path value, operand = .field path value
  · obtain ⟨path, value, rfl⟩ := hfield
    rw [Operand.clause, Operand.clause, valueClause_phrase hphrase, valueClause_phrase hphrase]
    cases options.fieldClause path value with
    | error e => rfl
    | ok clause => rfl
  · exact Operand.clause_not fun path value heq => hfield ⟨path, value, heq⟩

/-- The document is a clause on fields with this truth value. -/
def Document.Means (document : Document) (value : Bool) : Prop :=
  IsClause False document ∧ document.holds ρ = value

theorem Branch.conjunction_means {branch : Branch} {clauses : List Document} (hne : branch ≠ [])
    (h : List.Forall₂ (fun operand clause => clause.Means ρ (operand.holds options ρ))
      branch clauses) : (conjunction clauses).Means ρ (branch.holds options ρ) := by
  have hclauses : ∀ clause ∈ clauses, IsClause False clause :=
    forall_of_forall₂ (h.imp fun _ _ h => h.1)
  have hne := ne_nil_of_forall₂ h hne
  refine ⟨conjunction_isClause hne hclauses, ?_⟩
  rw [conjunction_holds ρ hne fun clause hclause => (hclauses clause hclause).searchOf?_eq_none,
    Branch.holds_eq_all, all_eq_of_forall₂ (h.imp fun _ _ h => h.2)]

theorem Query.disjunction_means {query : Query} {clauses : List Document} (hne : query ≠ [])
    (h : List.Forall₂ (fun branch clause => clause.Means ρ (Branch.holds options ρ branch))
      query clauses) : (disjunction clauses).Means ρ (query.holds options ρ) := by
  have hclauses : ∀ clause ∈ clauses, IsClause False clause :=
    forall_of_forall₂ (h.imp fun _ _ h => h.1)
  have hne := ne_nil_of_forall₂ h hne
  refine ⟨disjunction_isClause hne hclauses, ?_⟩
  rw [disjunction_holds ρ hne fun clause hclause => (hclauses clause hclause).searchOf?_eq_none,
    Query.holds_eq_any, any_eq_of_forall₂ (h.imp fun _ _ h => h.2)]

theorem Operand.clause_means
    (hdefault : ∀ field ∈ options.defaultFields, isOperatorName field = false)
    (hphrase : options.multiWordValues = .phrase) {operand : Operand}
    (hproper : operand.Proper (fun path _ => isOperatorName (options.fieldName path) = false)
      fun _ => options.defaultFields ≠ [])
    {document : Document} (h : operand.clause options = .ok document) :
    document.Means ρ (operand.holds options ρ) := by
  have hfits : options.Fits False := by
    refine ⟨hdefault, fun hsplit => ?_⟩
    rw [hphrase] at hsplit
    cases hsplit
  induction hproper generalizing document with
  | @field path value hpath =>
      refine ⟨Operand.clause_isClause hfits (.field hpath) h, ?_⟩
      rw [Operand.clause, valueClause_phrase hphrase] at h
      obtain ⟨clause, hclause, rfl⟩ := map_eq_ok_iff.mp h
      exact fieldClause_holds ρ hclause
  | @text text hne =>
      refine ⟨Operand.clause_isClause hfits (.text hne) h, ?_⟩
      rw [Operand.clause] at h
      cases h
      exact textClause_holds ρ hne text
  | @not operand hproper ih =>
      rw [Operand.clause_not_phrase hphrase] at h
      obtain ⟨clause, hclause, rfl⟩ := map_eq_ok_iff.mp h
      obtain ⟨hisClause, hholds⟩ := ih hclause
      refine ⟨hisClause.negate, ?_⟩
      rw [negate_holds ρ hisClause, hholds, Operand.holds]
  | @group branches some_branch some_operand hproper ih =>
      rw [Operand.clause] at h
      obtain ⟨clauses, hclauses, rfl⟩ := map_eq_ok_iff.mp h
      rw [Operand.holds]
      refine Query.disjunction_means ρ some_branch (Query.clauses_forall₂ ?_ hclauses)
      intro branch hbranch operands hoperands
      refine Branch.conjunction_means ρ (some_operand branch hbranch) ?_
      exact Branch.clauses_forall₂ (fun operand hoperand _ => ih branch hbranch operand hoperand)
        hoperands

/-- **Compilation keeps the meaning.**  Let no field of the query and no default field have the name
of an operator, let there be default fields if there is free text, and let no list in the query be
empty.  Then under every valuation the filter of the query holds exactly if the query does. -/
theorem Query.compile_holds
    (hdefault : ∀ field ∈ options.defaultFields, isOperatorName field = false)
    (hphrase : options.multiWordValues = .phrase) {query : Query}
    (hproper : query.Proper (fun path _ => isOperatorName (options.fieldName path) = false)
      fun _ => options.defaultFields ≠ [])
    {document : Document} (h : query.compile options = .ok document) :
    document.holds ρ = query.holds options ρ := by
  rw [Query.compile_eq] at h
  have hmeans := Operand.clause_means ρ hdefault hphrase (Operand.proper_group_iff.mpr hproper) h
  rw [hmeans.2, Operand.holds]

end queries

/-- A negated group with free text, beside a field that cannot be merged. -/
theorem Query.compile_holds_negated :
    ∃ (options : Options) (query : Query) (document : Document) (ρ : Valuation),
      options = { defaultFields := ["title", "body"] } ∧
      query = [[.not (.group [[.field ⟨["a"]⟩ (.words ["true"]), .text (.words ["x"])],
        [.not (.field ⟨["b"]⟩ (.quoted .double "y"))]]), .field ⟨["b"]⟩ (.words ["z"])]] ∧
      document = entry Op.and (Datum.ofDocuments
        [entry Op.and (Datum.ofDocuments
          [entry Op.or (Datum.ofDocuments
            [entry "a" (.document (entry Op.ne (.bool true))),
              [("title", .document (entry Op.ne (.document (regexCondition "x" true)))),
                ("body", .document (entry Op.ne (.document (regexCondition "x" true))))]]),
            entry "b" (.string "y")]),
          entry "b" (.string "z")]) ∧
      query.compile options = .ok document ∧ document.holds ρ = query.holds options ρ := by
  have hdefault : ∀ field ∈ ["title", "body"], isOperatorName field = false := by decide
  refine ⟨_, _, _, fun field _ => field == "b", rfl, rfl, rfl, ?_⟩
  refine (fun h => ⟨h, Query.compile_holds _ hdefault rfl ?_ h⟩ : _ → _ ∧ _) (by cbv)
  have hfield : ∀ {name : String} {value : Value}, isOperatorName name = false →
      (Operand.field ⟨[name]⟩ value).Proper (fun path _ => isOperatorName path.text = false)
        fun _ => ["title", "body"] ≠ [] := fun hname => .field hname
  refine ⟨by simp, List.forall_mem_singleton.mpr ⟨by simp, List.forall_mem_cons.mpr ⟨.not ?_, ?_⟩⟩⟩
  · refine .group (by simp) (by simp) ?_
    refine List.forall_mem_cons.mpr ⟨?_, List.forall_mem_singleton.mpr ?_⟩
    · exact List.forall_mem_cons.mpr ⟨hfield (by decide), List.forall_mem_singleton.mpr
        (.text (by simp))⟩
    · exact List.forall_mem_singleton.mpr (.not (hfield (by decide)))
  · exact List.forall_mem_singleton.mpr (hfield (by decide))

end QueryFilter
