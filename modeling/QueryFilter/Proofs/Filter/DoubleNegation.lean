import QueryFilter.Proofs.Filter.DeMorgan
import QueryFilter.Proofs.Filter.Meaning
import QueryFilter.Proofs.Filter.SearchCount

/-! # Negating a filter again

Negating a filter twice does not always give it back: conditions in a disjunction inside of a
disjunction are merged by the first negation, and the second makes one disjunction of them all.  But
what has been negated once has nothing left to merge.  So for filters without text searches

* two negations give back the filter of a conjunction of fields, and
* three negations are one negation.

`Query.compile_negation_twice` says so of queries.  Filters without text searches are normal
(`Document.IsNormal`): no two clauses of an `$and` can be merged.  Those that two negations give back
are stable.  Conjunctions of stable filters are stable (`conjunction_isStable`), and therefore
negations of normal filters are (`isStable_negate`). -/

namespace QueryFilter

open Document

/-! ### Normal filters -/

namespace Document

/-- A clause without text searches in which nothing is left to merge. -/
inductive IsNormal : Document → Prop
  | fields {document : Document} (some_field : document ≠ []) (h : document.IsFields) :
      IsNormal document
  | and {clauses : List Document} (two : 2 ≤ clauses.length) (apart : StaysApart clauses)
      (each : ∀ clause ∈ clauses, IsNormal clause) :
      IsNormal (entry Op.and (Datum.ofDocuments clauses))
  | or {clauses : List Document} (two : 2 ≤ clauses.length)
      (each : ∀ clause ∈ clauses, IsNormal clause) :
      IsNormal (entry Op.or (Datum.ofDocuments clauses))

variable {document : Document} {clauses : List Document}

theorem IsNormal.searchOf?_eq_none (h : document.IsNormal) : searchOf? document = none := by
  cases h with
  | fields _ h => exact h.searchOf?_eq_none
  | and => exact searchOf?_and _
  | or => exact searchOf?_or _

theorem searches_eq_nil_of_isNormal (h : ∀ clause ∈ clauses, clause.IsNormal) :
    searches clauses = [] :=
  searches_eq_nil fun clause hclause => (h clause hclause).searchOf?_eq_none

theorem IsNormal.isClause (h : document.IsNormal) : IsClause False document := by
  induction h with
  | fields some_field h => exact .fields some_field h
  | and two _ each ih => exact .and two ih (by rw [searches_eq_nil_of_isNormal each]; simp)
  | or two each ih =>
      obtain ⟨clause, hclause⟩ :=
        List.exists_mem_of_length_pos (Nat.lt_of_lt_of_le Nat.zero_lt_two two)
      exact .or two ih ⟨clause, hclause, (each clause hclause).searchOf?_eq_none⟩

/-- A normal filter that is simple consists of conditions on fields. -/
theorem IsNormal.isFields (h : document.IsNormal) (hsimple : isSimple document = true) :
    document.IsFields :=
  h.isClause.isFields_of_isSimple hsimple

theorem entry_isNormal {key : String} (hkey : isOperatorName key = false) {condition : Datum}
    (h : condition.IsCondition) : (entry key condition).IsNormal :=
  .fields (by simp [entry]) (entry_isFields hkey h)

theorem isSimple_operator {key : String} (hkey : isOperatorName key = true) (value : Datum) :
    isSimple (entry key value) = false := by
  simp [isSimple, entry, keys, hkey]

end Document

/-! ### Conjunctions of normal filters -/

section conjunction
variable {clauses : List Document}

/-- What a conjunction of normal filters can come to: its only clause, one document with the
conditions of all clauses, or clauses that stay apart. -/
theorem conjunction_cases_of_isNormal (hne : clauses ≠ [])
    (h : ∀ clause ∈ clauses, clause.IsNormal) :
    (∃ clause, clauses = [clause] ∧ conjunction clauses = clause) ∨
    (∃ merged : Document, merged.IsFields ∧ clauses.length ≤ merged.length ∧
      conjunction clauses = merged) ∨
    (∃ apart, 2 ≤ apart.length ∧ StaysApart apart ∧
      (∀ clause ∈ apart, clause ∈ clauses ∨ clause ≠ [] ∧ clause.IsFields) ∧
      conjunction clauses = entry Op.and (Datum.ofDocuments apart)) := by
  have hjoin : joinSearches clauses = clauses :=
    joinSearches_eq_self (by rw [searches_eq_nil_of_isNormal h]; simp)
  have hfields := gather_isFields .nil fun clause hclause => (h clause hclause).isClause
  have hlength := length_le_gather [] clauses
  have happart := gather_staysApart clauses
  have hsublist := gather_sublist [] clauses
  have hnonempty : none ∈ (gather [] clauses).2 → _ := gather_ne_nil_of_none_mem
  rcases conjunction_cases hne with
    ⟨clause, hc, heq⟩ | ⟨merged, hg, heq⟩ | ⟨merged, places, hg, two, heq⟩
  · rw [hjoin] at hc
    exact .inl ⟨clause, hc, heq⟩
  · rw [hjoin] at hg
    rw [hg] at hfields hlength
    exact .inr (.inl ⟨merged, hfields, by simpa using hlength, heq⟩)
  · rw [hjoin] at hg
    rw [hg] at hfields happart hsublist hnonempty
    refine .inr (.inr ⟨_, by simpa using two, happart, ?_, heq⟩)
    refine List.forall_mem_map.mpr fun place hplace => ?_
    cases place with
    | none => exact .inr ⟨hnonempty hplace, hfields⟩
    | some clause => exact .inl (hsublist.subset (List.mem_filterMap.mpr ⟨_, hplace, rfl⟩))

theorem conjunction_isNormal (hne : clauses ≠ []) (h : ∀ clause ∈ clauses, clause.IsNormal) :
    (conjunction clauses).IsNormal := by
  have hpos := List.length_pos_iff.mpr hne
  rcases conjunction_cases_of_isNormal hne h with
    ⟨clause, rfl, heq⟩ | ⟨merged, hfields, hlength, heq⟩ | ⟨apart, two, happart, heach, heq⟩
  · rw [heq]
    exact h clause (by simp)
  · rw [heq]
    exact .fields (List.ne_nil_of_length_pos (by omega)) hfields
  · rw [heq]
    refine .and two happart fun clause hclause => ?_
    rcases heach clause hclause with hmem | ⟨hsome, hfields⟩
    · exact h clause hmem
    · exact .fields hsome hfields

theorem disjunction_isNormal (hne : clauses ≠ []) (h : ∀ clause ∈ clauses, clause.IsNormal) :
    (disjunction clauses).IsNormal := by
  match clauses, hne, h with
  | [clause], _, h => exact h clause (by simp)
  | first :: second :: rest, _, h =>
      rw [disjunction_eq_or (by simp) ⟨first, by simp, (h first (by simp)).searchOf?_eq_none⟩]
      exact .or (by simp) h

end conjunction

theorem Document.IsNormal.negate {document : Document} (h : document.IsNormal) :
    (negate document).IsNormal := by
  induction h with
  | @fields document some_field h =>
      rw [negate_fields some_field h]
      refine disjunction_isNormal (by simpa using some_field) ?_
      exact List.forall_mem_map.mpr fun e he =>
        entry_isNormal (h.names e he) (h.conditions e he).negateValue
  | and two _ _ ih =>
      rw [negate_and]
      exact .or (by simpa using two) (List.forall_mem_map.mpr ih)
  | @or clauses two _ ih =>
      rw [negate_or]
      have hne : clauses ≠ [] := List.ne_nil_of_length_pos (by omega)
      exact conjunction_isNormal (by simpa using hne) (List.forall_mem_map.mpr ih)

/-- The operations from which filters are built keep them normal. -/
theorem isKept_isNormal : IsKept IsNormal :=
  ⟨conjunction_isNormal, disjunction_isNormal, fun h => h.negate⟩

/-! ### Stable filters -/

theorem negateValue_negateValue {condition : Datum} (h : condition.IsCondition) :
    negateValue (negateValue condition) = condition := by
  cases h with
  | plain h => rw [h.negateValue_eq, negateValue_negated]
  | negated h => rw [negateValue_negated, h.negateValue_eq]

/-- A normal filter that two negations give back. -/
structure Document.IsStable (document : Document) : Prop where
  isNormal : document.IsNormal
  negate_negate : negate (negate document) = document

/-- Conditions on fields become a disjunction, and merge again. -/
theorem Document.IsFields.isStable {document : Document} (hne : document ≠ [])
    (h : document.IsFields) : document.IsStable := by
  refine ⟨.fields hne h, ?_⟩
  obtain ⟨e, he⟩ := List.exists_mem_of_ne_nil document hne
  have hother : ∃ clause ∈ document.map (fun e => entry e.1 (negateValue e.2)),
      searchOf? clause = none :=
    ⟨_, List.mem_map_of_mem he, searchOf?_field (h.names e he) _⟩
  have hback : (document.map fun e => entry e.1 (negateValue e.2)).map negate =
      document.map fun e => [e] := by
    rw [List.map_map]
    refine List.map_congr_left fun e he => ?_
    have hcondition := h.conditions e he
    show negateEntry e.1 (negateValue e.2) = _
    rw [negateEntry_field (h.names e he) hcondition.negateValue, negateValue_negateValue hcondition]
    rfl
  rw [negate_fields hne h, negate_disjunction hother, hback,
    conjunction_entries hne h.names h.nodup]

theorem conjunction_isStable {clauses : List Document} (hne : clauses ≠ [])
    (h : ∀ clause ∈ clauses, clause.IsStable) : (conjunction clauses).IsStable := by
  have hnormal : ∀ clause ∈ clauses, clause.IsNormal := fun clause hclause =>
    (h clause hclause).isNormal
  have hpos := List.length_pos_iff.mpr hne
  refine ⟨conjunction_isNormal hne hnormal, ?_⟩
  rcases conjunction_cases_of_isNormal hne hnormal with
    ⟨clause, rfl, heq⟩ | ⟨merged, hfields, hlength, heq⟩ | ⟨apart, two, happart, heach, heq⟩
  · rw [heq]
    exact (h clause (by simp)).negate_negate
  · rw [heq]
    exact (hfields.isStable (List.ne_nil_of_length_pos (by omega))).negate_negate
  · have hstable : ∀ clause ∈ apart, clause.IsStable := fun clause hclause =>
      (heach clause hclause).elim (h clause) fun hfields => hfields.2.isStable hfields.1
    have hback : apart.map (negate ∘ negate) = apart.map id :=
      List.map_congr_left fun clause hclause => (hstable clause hclause).negate_negate
    rw [heq, negate_and, negate_or, List.map_map, hback, List.map_id]
    refine happart.conjunction_eq two ?_
    rw [searches_eq_nil_of_isNormal fun clause hclause => (hstable clause hclause).isNormal]
    simp

/-- The negation of a conjunction of several clauses is a disjunction. -/
theorem isSimple_negate_conjunction {clauses : List Document} (two : 2 ≤ clauses.length)
    (h : ∀ clause ∈ clauses, clause.IsNormal) :
    isSimple (negate (conjunction clauses)) = false := by
  have hne : clauses ≠ [] := List.ne_nil_of_length_pos (by omega)
  rcases conjunction_cases_of_isNormal hne h with
    ⟨clause, rfl, -⟩ | ⟨merged, -, hlength, heq⟩ | ⟨apart, -, -, -, heq⟩
  · simp at two
  · rw [heq]
    match merged, Nat.le_trans two hlength with
    | e :: f :: rest, _ => exact isSimple_operator (by decide) _
  · rw [heq, negate_and]
    exact isSimple_operator (by decide) _

/-- What has been negated is stable.  Beside it, two negations make no filter simple. -/
theorem isStable_negate {document : Document} (h : document.IsNormal) :
    (negate document).IsStable ∧
      (isSimple document = false → isSimple (negate (negate document)) = false) := by
  induction h with
  | fields some_field h =>
      have hback := (h.isStable some_field).negate_negate
      refine ⟨⟨(IsNormal.fields some_field h).negate, congrArg negate hback⟩, ?_⟩
      rw [hback]
      exact id
  | @and clauses two apart each ih =>
      have happart : StaysApart (clauses.map (negate ∘ negate)) := by
        refine apart.map (fun clause hclause hsimple => ?_) fun clause hclause =>
          (ih clause hclause).2
        have hfields := (each clause hclause).isFields hsimple
        exact (hfields.isStable (isSimple_iff.mp hsimple).1).negate_negate
      have hnormal : ∀ clause ∈ clauses.map (negate ∘ negate), clause.IsNormal :=
        List.forall_mem_map.mpr fun clause hclause => (each clause hclause).negate.negate
      -- Nothing that could be merged has appeared, so the clauses are joined as they were.
      have hback : negate (negate (entry Op.and (Datum.ofDocuments clauses))) =
          entry Op.and (Datum.ofDocuments (clauses.map (negate ∘ negate))) := by
        rw [negate_and, negate_or, List.map_map]
        refine happart.conjunction_eq (by simpa using two) ?_
        rw [searches_eq_nil_of_isNormal hnormal]
        simp
      refine ⟨⟨(IsNormal.and two apart each).negate, ?_⟩, fun _ => ?_⟩
      · rw [hback, negate_and, negate_and, List.map_map]
        congr 2
        exact List.map_congr_left fun clause hclause => (ih clause hclause).1.negate_negate
      · rw [hback]
        exact isSimple_operator (by decide) _
  | @or clauses two each ih =>
      have hne : clauses ≠ [] := List.ne_nil_of_length_pos (by omega)
      rw [negate_or]
      constructor
      · exact conjunction_isStable (by simpa using hne)
          (List.forall_mem_map.mpr fun clause hclause => (ih clause hclause).1)
      · intro _
        exact isSimple_negate_conjunction (by simpa using two)
          (List.forall_mem_map.mpr fun clause hclause => (each clause hclause).negate)

/-! ### Operands -/

section operands
variable {options : Options}

theorem Options.textClause_isNormal (hne : options.defaultFields ≠ [])
    (hnames : ∀ field ∈ options.defaultFields, isOperatorName field = false) (text : FreeText) :
    (options.textClause text).IsNormal := by
  have hentry : ∀ field ∈ options.defaultFields,
      (entry field (.document text.condition)).IsNormal := fun field hfield =>
    entry_isNormal (hnames field hfield) (.plain text.condition_isLeaf)
  unfold Options.textClause
  match hfields : options.defaultFields with
  | [] => exact absurd hfields hne
  | [field] => exact hentry field (by simp [hfields])
  | first :: second :: rest =>
      rw [hfields] at hentry
      exact .or (by simp) (List.forall_mem_map.mpr hentry)

/-- Without text searches, the clause of an operand is normal. -/
theorem Operand.clause_isNormal
    (hdefault : ∀ field ∈ options.defaultFields, isOperatorName field = false)
    (hphrase : options.multiWordValues = .phrase) {operand : Operand}
    (hproper : operand.Proper (fun path _ => isOperatorName (options.fieldName path) = false)
      fun _ => options.defaultFields ≠ [])
    {document : Document} (h : operand.clause options = .ok document) : document.IsNormal := by
  refine Operand.clause_kept isKept_isNormal ?_ ?_ hproper h
  · intro path value hpath negated document hclause
    refine Options.valueClause_kept isKept_isNormal (fun value clause hfield => ?_) ?_ hclause
    · obtain ⟨leaf, rfl, hleaf⟩ := Options.fieldClause_eq_ok hfield
      exact entry_isNormal hpath (.plain hleaf)
    · intro hsplit
      rw [hphrase] at hsplit
      cases hsplit
  · exact fun text hne => Options.textClause_isNormal hne hdefault text

theorem Options.valueClause_isStable (hphrase : options.multiWordValues = .phrase) {negated : Bool}
    {path : Path} (hname : isOperatorName (options.fieldName path) = false) {value : Value}
    {document : Document} (h : options.valueClause negated path value = .ok document) :
    document.IsStable := by
  rw [valueClause_phrase hphrase] at h
  obtain ⟨clause, hclause, rfl⟩ := map_eq_ok_iff.mp h
  obtain ⟨condition, hcondition, hentry⟩ := Options.negateIf_eq_entry negated hname hclause
  rw [hentry]
  exact (entry_isFields hname hcondition).isStable (by simp [entry])

/-- The clause of a conjunction of fields is stable. -/
theorem Operand.IsConjunctive.clause_isStable (hphrase : options.multiWordValues = .phrase)
    {operand : Operand} (h : operand.IsConjunctive)
    (hproper : operand.Proper (fun path _ => isOperatorName (options.fieldName path) = false)
      fun _ => False)
    {document : Document} (hclause : operand.clause options = .ok document) :
    document.IsStable := by
  induction h generalizing document with
  | field path value =>
      cases hproper with
      | field hname =>
          rw [Operand.clause] at hclause
          exact Options.valueClause_isStable hphrase hname hclause
  | text text =>
      cases hproper with
      | text h => exact h.elim
  | notField path value =>
      cases hproper with
      | not hproper =>
          cases hproper with
          | field hname =>
              rw [Operand.clause] at hclause
              exact Options.valueClause_isStable hphrase hname hclause
  | notText text =>
      cases hproper with
      | not hproper =>
          cases hproper with
          | text h => exact h.elim
  | @group branch _ ih =>
      cases hproper with
      | group _ some_operand hproper =>
          have hbranch : branch ∈ [branch] := List.mem_singleton_self branch
          rw [Operand.clause_group_branch] at hclause
          obtain ⟨clauses, hclauses, rfl⟩ := map_eq_ok_iff.mp hclause
          have hstable : List.Forall₂ (fun _ clause => clause.IsStable) branch clauses :=
            Branch.clauses_forall₂ (fun operand hoperand _ =>
              ih operand hoperand (hproper branch hbranch operand hoperand)) hclauses
          exact conjunction_isStable (ne_nil_of_forall₂ hstable (some_operand branch hbranch))
            (forall_of_forall₂ hstable)

end operands

/-! ### Queries -/

/-- The query in parentheses behind a `NOT`. -/
def Query.negation (query : Query) : Query := [[.not (.group query)]]

section queries
variable {options : Options}

theorem Query.compile_negation (query : Query) :
    query.negation.compile options = (query.compile options).map negate :=
  Query.compile_not_group query

/-- **Two and three negations.**  Let no field of the query and no default field have the name of an
operator, let no list in the query be empty, and let values not be split.  A conjunction of fields,
some of them negated, has the filter of its double negation.  And the negation of a query has the
filter of its triple negation, if there are default fields where there is free text. -/
theorem Query.compile_negation_twice
    (hdefault : ∀ field ∈ options.defaultFields, isOperatorName field = false)
    (hphrase : options.multiWordValues = .phrase) (query : Query) :
    (query.IsConjunctive →
      query.Proper (fun path _ => isOperatorName (options.fieldName path) = false)
        (fun _ => False) →
      query.negation.negation.compile options = query.compile options) ∧
    (query.Proper (fun path _ => isOperatorName (options.fieldName path) = false)
        (fun _ => options.defaultFields ≠ []) →
      query.negation.negation.negation.compile options = query.negation.compile options) := by
  constructor
  · intro hconjunctive hproper
    rw [Query.compile_negation, Query.compile_negation]
    cases hcompile : query.compile options with
    | error e => rfl
    | ok document =>
        rw [Query.compile_eq] at hcompile
        have hstable := hconjunctive.clause_isStable hphrase (Operand.proper_group_iff.mpr hproper)
          hcompile
        exact congrArg Except.ok hstable.negate_negate
  · intro hproper
    rw [Query.compile_negation, Query.compile_negation, Query.compile_negation]
    cases hcompile : query.compile options with
    | error e => rfl
    | ok document =>
        rw [Query.compile_eq] at hcompile
        have hnormal := Operand.clause_isNormal hdefault hphrase
          (Operand.proper_group_iff.mpr hproper) hcompile
        exact congrArg Except.ok (isStable_negate hnormal).1.negate_negate

end queries

/-- Two conditions on one field in a group, and a disjunction inside of another. -/
theorem Query.compile_negation_twice_nested :
    ∃ (options : Options) (query other : Query) (document negated : Document),
      options = { defaultFields := ["title", "body"] } ∧
      query = [[.field ⟨["a"]⟩ (.words ["true"]), .group [[.not (.field ⟨["b"]⟩ (.words ["x"])),
        .field ⟨["a"]⟩ (.quoted .double "y")]]]] ∧
      other = [[.field ⟨["a"]⟩ (.words ["true"])], [.text (.words ["x"])]] ∧
      document = entry Op.and (Datum.ofDocuments [entry "a" (.bool true),
        [("b", .document (entry Op.ne (.string "x"))), ("a", .string "y")]]) ∧
      negated = [("a", .document (entry Op.ne (.bool true))),
        ("title", .document (entry Op.ne (.document (regexCondition "x" true)))),
        ("body", .document (entry Op.ne (.document (regexCondition "x" true))))] ∧
      query.compile options = .ok document ∧
      query.negation.negation.compile options = .ok document ∧
      other.negation.compile options = .ok negated ∧
      other.negation.negation.negation.compile options = .ok negated := by
  have hdefault : ∀ field ∈ ["title", "body"], isOperatorName field = false := by decide
  refine ⟨_, _, _, _, _, rfl, rfl, rfl, rfl, rfl, ?_⟩
  have hquery : Query.compile { defaultFields := ["title", "body"] }
      [[.field ⟨["a"]⟩ (.words ["true"]), .group [[.not (.field ⟨["b"]⟩ (.words ["x"])),
        .field ⟨["a"]⟩ (.quoted .double "y")]]]] =
      .ok (entry Op.and (Datum.ofDocuments [entry "a" (.bool true),
        [("b", .document (entry Op.ne (.string "x"))), ("a", .string "y")]])) := by
    cbv
  have hother : (Query.negation
      [[.field ⟨["a"]⟩ (.words ["true"])], [.text (.words ["x"])]]).compile
        { defaultFields := ["title", "body"] } =
      .ok [("a", .document (entry Op.ne (.bool true))),
        ("title", .document (entry Op.ne (.document (regexCondition "x" true)))),
        ("body", .document (entry Op.ne (.document (regexCondition "x" true))))] := by
    cbv
  refine ⟨hquery, ?_, hother, ?_⟩
  · refine ((Query.compile_negation_twice hdefault rfl _).1 ?_ ?_).trans hquery
    · refine .group (List.forall_mem_cons.mpr ⟨.field _ _, List.forall_mem_singleton.mpr ?_⟩)
      exact .group (List.forall_mem_cons.mpr ⟨.notField _ _, List.forall_mem_singleton.mpr
        (.field _ _)⟩)
    · refine ⟨by simp, List.forall_mem_singleton.mpr ⟨by simp, List.forall_mem_cons.mpr ?_⟩⟩
      refine ⟨.field (by decide), List.forall_mem_singleton.mpr (.group (by simp) (by simp) ?_)⟩
      exact List.forall_mem_singleton.mpr (List.forall_mem_cons.mpr
        ⟨.not (.field (by decide)), List.forall_mem_singleton.mpr (.field (by decide))⟩)
  · refine ((Query.compile_negation_twice hdefault rfl _).2 ?_).trans hother
    refine ⟨by simp, List.forall_mem_cons.mpr ⟨⟨by simp, ?_⟩, ?_⟩⟩
    · exact List.forall_mem_singleton.mpr (.field (by decide))
    · exact List.forall_mem_singleton.mpr ⟨by simp, List.forall_mem_singleton.mpr
        (.text (by simp))⟩

/-- Two negations take the disjunctions together. -/
example : (Query.negation (Query.negation
    [[.field ⟨["a"]⟩ (.words ["true"])], [.text (.words ["x"])]])).compile
      { defaultFields := ["title", "body"] } =
    .ok (entry Op.or (Datum.ofDocuments [entry "a" (.bool true),
      entry "title" (.document (regexCondition "x" true)),
      entry "body" (.document (regexCondition "x" true))])) := by
  rfl

end QueryFilter
