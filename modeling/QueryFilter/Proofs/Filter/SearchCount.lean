import QueryFilter.Proofs.Filter.Fault
import QueryFilter.Proofs.Filter.Parity

/-! # How many text searches a filter has

A filter may carry only one text search.  The operands of one conjunction keep to that: their text
searches are joined into one (`conjunction_searchCount`).  But a text search inside of an operand is
left where it is, and such an operand is made by a group that mixes fields with free texts, and by
a value whose words are split.  `Query.searchCount` counts what comes out of it, and
`Compiler.filter_searchCount` says that the filter of a conjunctive query has so many text
searches: at most one, if no operand mixes fields with free texts. -/

namespace QueryFilter

open Document

/-! ### Counting in documents -/

/-- How many text searches there are at any depth of the document. -/
def Document.searchCount (document : Document) : Nat :=
  document.nested.countP fun e => e.1 == Op.text

theorem countP_nested_ofDocuments (clauses : List Document) :
    ((Datum.ofDocuments clauses).nested.countP fun e => e.1 == Op.text) =
      (clauses.map searchCount).sum := by
  rw [Datum.ofDocuments, Datum.nested]
  induction clauses with
  | nil => rfl
  | cons clause clauses ih =>
      rw [List.map_cons, Datum.nestedItems, List.countP_append, ih, List.map_cons, List.sum_cons]
      rfl

/-- Clauses that are joined by an operator keep their searches. -/
theorem searchCount_join {key : String} (hkey : key ≠ Op.text) (clauses : List Document) :
    (entry key (Datum.ofDocuments clauses)).searchCount = (clauses.map searchCount).sum := by
  rw [searchCount, entry, Document.nested, Document.nested, List.append_nil, List.countP_cons,
    countP_nested_ofDocuments]
  simp [hkey]

theorem searchCount_textSearch (search : String) : (textSearch search).searchCount = 1 := by
  simp [searchCount, textSearch, entry, Document.nested, Datum.nested, Op.text, Op.search]

theorem Datum.IsLeaf.ne_text {leaf : Datum} (h : leaf.IsLeaf) :
    ∀ e ∈ leaf.nested, e.1 ≠ Op.text := by
  cases h with
  | compared hkey hvalue =>
      have hne : ∀ key ∈ [Op.gt, Op.gte, Op.lt, Op.lte], key ≠ Op.text := by decide
      simpa [Datum.nested, Document.nested, IsNumber.nested_eq_nil hvalue] using hne _ hkey
  | range hbounds =>
      have hlower := IsNumber.nested_eq_nil (hbounds.imp And.left And.left)
      have hupper := IsNumber.nested_eq_nil (hbounds.imp And.right And.right)
      simp [Datum.nested, Document.nested, hlower, hupper, Op.gte, Op.lte, Op.text]
  | _ => simp [Datum.nested, Document.nested, Op.present, Op.regex, Op.options, Op.text]

theorem Datum.IsCondition.ne_text {condition : Datum} (h : condition.IsCondition) :
    ∀ e ∈ condition.nested, e.1 ≠ Op.text := by
  cases h with
  | plain hleaf => exact hleaf.ne_text
  | negated hleaf =>
      have hne : Op.ne ≠ Op.text := by decide
      rw [Datum.nested, entry, Document.nested, Document.nested, List.append_nil]
      exact List.forall_mem_cons.mpr ⟨hne, hleaf.ne_text⟩

/-- There is no text search among fields. -/
theorem Document.IsFields.searchCount_eq_zero {document : Document} (h : document.IsFields) :
    document.searchCount = 0 := by
  rw [searchCount, List.countP_eq_zero]
  intro e he
  obtain ⟨e', he', rfl | hin⟩ := Document.mem_nested.mp he
  · have hname := h.names e he'
    rw [beq_iff_eq]
    intro htext
    rw [htext] at hname
    exact absurd hname (by decide)
  · simpa using (h.conditions e' he').ne_text e hin

/-! ### Counting in conjunctions -/

section conjunction
variable {texts : Prop} {clauses : List Document}

/-- What is merged has no text searches, so those of all clauses are in the clauses that stay
apart. -/
theorem gather_searchCount (h : ∀ clause ∈ clauses, IsClause texts clause) (merged : Document) :
    (((gather merged clauses).2.filterMap id).map searchCount).sum =
      (clauses.map searchCount).sum := by
  induction clauses generalizing merged with
  | nil => rfl
  | cons clause clauses ih =>
      obtain ⟨hclause, hrest⟩ := List.forall_mem_cons.mp h
      cases hmerge : canMerge merged clause with
      | true =>
          have hsimple : isSimple clause = true := by
            rw [canMerge, Bool.and_eq_true] at hmerge
            exact hmerge.1
          have hzero := (hclause.isFields_of_isSimple hsimple).searchCount_eq_zero
          rw [filterMap_gather_merge hmerge, ih hrest, List.map_cons, List.sum_cons, hzero,
            zero_add]
      | false =>
          rw [gather_apart hmerge, List.map_cons, List.sum_cons, ← ih hrest merged]
          rfl

theorem places_searchCount {merged : Document} (h : merged.searchCount = 0)
    (places : List (Option Document)) :
    ((places.map fun place => place.getD merged).map searchCount).sum =
      ((places.filterMap id).map searchCount).sum := by
  induction places with
  | nil => rfl
  | cons place places ih =>
      cases place with
      | none => simpa [h] using ih
      | some clause => simpa using ih

/-- The text searches among the clauses become one, those inside of the other clauses stay. -/
theorem placeSearch_searchCount (search : String) (clauses : List Document) :
    ((placeSearch (textSearch search) clauses).map searchCount).sum =
      (if clauses.any fun clause => (searchOf? clause).isSome then 1 else 0) +
        ((clauses.filter fun clause => (searchOf? clause).isNone).map searchCount).sum := by
  induction clauses with
  | nil => rfl
  | cons clause clauses ih =>
      cases hsearch : searchOf? clause with
      | some search' => simp [placeSearch, hsearch, searchCount_textSearch]
      | none =>
          simp only [placeSearch, hsearch, Option.isSome_none, Option.isNone_none, List.any_cons,
            List.filter_cons, Bool.false_or, Bool.false_eq_true, if_true, if_false, List.map_cons,
            List.sum_cons, ih]
          omega

/-- A conjunction has one text search for all clauses that are one, and those inside of the other
clauses. -/
theorem conjunction_searchCount (hne : clauses ≠ [])
    (h : ∀ clause ∈ clauses, IsClause texts clause) :
    (conjunction clauses).searchCount =
      (if clauses.any fun clause => (searchOf? clause).isSome then 1 else 0) +
        ((clauses.filter fun clause => (searchOf? clause).isNone).map searchCount).sum := by
  have hjoin := joinSearches_isClause h
  have hzero := (gather_isFields .nil hjoin).searchCount_eq_zero
  have hgather := gather_searchCount hjoin []
  have hjoined : ((joinSearches clauses).map searchCount).sum = _ :=
    placeSearch_searchCount _ clauses
  rw [← hjoined]
  rcases conjunction_cases hne with
    ⟨clause, hc, heq⟩ | ⟨merged, hg, heq⟩ | ⟨merged, places, hg, -, heq⟩
  · rw [heq, hc]
    simp
  · rw [hg] at hzero hgather
    rw [heq, hzero, ← hgather]
    rfl
  · rw [hg] at hzero hgather
    rw [heq, searchCount_join (by decide), places_searchCount hzero, hgather]

/-- A conjunction is a text search if all its clauses are. -/
theorem isSome_searchOf?_conjunction (hne : clauses ≠ [])
    (h : ∀ clause ∈ clauses, IsClause texts clause) :
    (searchOf? (conjunction clauses)).isSome =
      clauses.all fun clause => (searchOf? clause).isSome := by
  cases hall : clauses.all fun clause => (searchOf? clause).isSome with
  | false =>
      rw [List.all_eq_false] at hall
      obtain ⟨clause, hclause, hnone⟩ := hall
      rw [searchOf?_conjunction hne h ⟨clause, hclause, by simpa using hnone⟩]
      rfl
  | true =>
      rw [conjunction, joinSearches_of_isSome hne (List.all_eq_true.mp hall)]
      exact congrArg Option.isSome (searchOf?_textSearch _)

end conjunction

/-! ### Counting in queries -/

/-- The operand is a conjunction: there is no `OR` in it, and only fields and free texts are
negated. -/
inductive Operand.IsConjunctive : Operand → Prop
  | field (path : Path) (value : Value) : IsConjunctive (.field path value)
  | text (text : FreeText) : IsConjunctive (.text text)
  | notField (path : Path) (value : Value) : IsConjunctive (.not (.field path value))
  | notText (text : FreeText) : IsConjunctive (.not (.text text))
  | group {branch : List Operand} (h : ∀ operand ∈ branch, IsConjunctive operand) :
      IsConjunctive (.group [branch])

/-- The query is a conjunction. -/
def Query.IsConjunctive (query : Query) : Prop := (Operand.group query).IsConjunctive

mutual

/-- How many text searches a conjunctive operand comes to. -/
def Operand.searchCount (options : Options) : Operand → Nat
  | .field _ value => if (options.splitWords? value).isSome then 1 else 0
  | .text _ => 1
  | .not operand => operand.searchCount options
  | .group branches => Query.searchCount options branches

/-- How many text searches are left inside of the operands: those of an operand with fields. -/
def Branch.innerSearchCount (options : Options) : List Operand → Nat
  | [] => 0
  | operand :: operands =>
    (if operand.fields.isEmpty then 0 else operand.searchCount options) +
      Branch.innerSearchCount options operands

/-- How many text searches a conjunctive query comes to.  The operands of a branch that have no
fields are joined into one. -/
def Query.searchCount (options : Options) : List (List Operand) → Nat
  | [] => 0
  | branch :: branches =>
    (if branch.any fun operand => operand.fields.isEmpty then 1 else 0) +
      Branch.innerSearchCount options branch + Query.searchCount options branches

end

theorem Branch.isEmpty_fields (branch : Branch) :
    (Branch.fields branch).isEmpty = branch.all fun operand => operand.fields.isEmpty := by
  induction branch with
  | nil => rfl
  | cons operand operands ih =>
      rw [Branch.fields, List.all_cons, ← ih, Bool.eq_iff_iff]
      simp

section clauses
variable {options : Options}

/-- The clause is a text search if the operand has no fields, and it has as many text searches as
the operand. -/
structure Operand.Counts (options : Options) (operand : Operand) (clause : Document) : Prop where
  isClause : IsClause True clause
  isSearch : (searchOf? clause).isSome = operand.fields.isEmpty
  count : clause.searchCount = operand.searchCount options

theorem Options.negateIf_eq_entry (negated : Bool) {path : Path}
    (hname : isOperatorName (options.fieldName path) = false) {value : Value} {clause : Document}
    (h : options.fieldClause path value = .ok clause) :
    ∃ condition : Datum, condition.IsCondition ∧
      (if negated then negate clause else clause) = entry (options.fieldName path) condition := by
  obtain ⟨leaf, rfl, hleaf⟩ := Options.fieldClause_eq_ok h
  have hcondition : leaf.IsCondition := .plain hleaf
  split
  · exact ⟨_, hcondition.negateValue, negateEntry_field hname hcondition⟩
  · exact ⟨leaf, hcondition, rfl⟩

/-- A field comes to no text search, unless words of its value are split off. -/
theorem Options.valueClause_counts (hdefault : options.defaultFields = []) {negated : Bool}
    {path : Path} (hname : isOperatorName (options.fieldName path) = false) {value : Value}
    {document : Document} (h : options.valueClause negated path value = .ok document) :
    IsClause True document ∧ searchOf? document = none ∧
      document.searchCount = if (options.splitWords? value).isSome then 1 else 0 := by
  unfold Options.valueClause at h
  dsimp only at h
  split at h
  · next first rest hsplit =>
    obtain ⟨clause, hclause, rfl⟩ := map_eq_ok_iff.mp h
    obtain ⟨condition, hcondition, hentry⟩ := Options.negateIf_eq_entry negated hname hclause
    have hfields := entry_isFields hname hcondition
    have htext : options.textClause (.words rest) = textSearch (" ".intercalate rest) := by
      rw [Options.textClause, hdefault]
      rfl
    rw [hentry, htext, hsplit]
    have hclauses : ∀ clause ∈ [entry (options.fieldName path) condition,
        textSearch (" ".intercalate rest)], IsClause True clause :=
      List.forall_mem_cons.mpr ⟨entry_isClause hname hcondition,
        List.forall_mem_singleton.mpr (.text trivial _)⟩
    refine ⟨conjunction_isClause (by simp) hclauses, ?_, ?_⟩
    · exact searchOf?_conjunction (by simp) hclauses ⟨_, by simp, hfields.searchOf?_eq_none⟩
    · rw [conjunction_searchCount (by simp) hclauses]
      simp [hfields.searchOf?_eq_none, hfields.searchCount_eq_zero]
  · next hsplit =>
    obtain ⟨clause, hclause, rfl⟩ := map_eq_ok_iff.mp h
    obtain ⟨condition, hcondition, hentry⟩ := Options.negateIf_eq_entry negated hname hclause
    have hfields := entry_isFields hname hcondition
    rw [hentry, hsplit]
    exact ⟨entry_isClause hname hcondition, hfields.searchOf?_eq_none,
      hfields.searchCount_eq_zero⟩

/-- The text searches inside of the clauses are those inside of the operands. -/
theorem Branch.innerSearchCount_eq {branch : Branch} {clauses : List Document}
    (h : List.Forall₂ (Operand.Counts options) branch clauses) :
    ((clauses.filter fun clause => (searchOf? clause).isNone).map searchCount).sum =
      Branch.innerSearchCount options branch := by
  induction h with
  | nil => rfl
  | @cons operand clause operands clauses hcounts _ ih =>
      have hsearch := hcounts.isSearch
      rw [Branch.innerSearchCount, ← ih, ← hcounts.count, ← hsearch, List.filter_cons]
      cases hclause : searchOf? clause with
      | none => simp
      | some search => simp

theorem Branch.conjunction_counts {branch : Branch} {clauses : List Document} (hne : branch ≠ [])
    (h : List.Forall₂ (Operand.Counts options) branch clauses) :
    Operand.Counts options (.group [branch]) (conjunction clauses) := by
  have hclauses : ∀ clause ∈ clauses, IsClause True clause :=
    forall_of_forall₂ (h.imp fun _ _ h => h.isClause)
  have hne := ne_nil_of_forall₂ h hne
  have hsearch := h.imp fun _ _ h => h.isSearch
  refine ⟨conjunction_isClause hne hclauses, ?_, ?_⟩
  · rw [isSome_searchOf?_conjunction hne hclauses, all_eq_of_forall₂ hsearch, Operand.fields,
      Query.fields, Query.fields, List.append_nil, Branch.isEmpty_fields]
  · rw [conjunction_searchCount hne hclauses, any_eq_of_forall₂ hsearch,
      Branch.innerSearchCount_eq h, Operand.searchCount, Query.searchCount, Query.searchCount,
      Nat.add_zero]

theorem Operand.counts_textSearch {operand : Operand} (hfields : operand.fields = [])
    (hcount : operand.searchCount options = 1) (search : String) :
    operand.Counts options (textSearch search) := by
  refine ⟨.text trivial search, ?_, ?_⟩
  · rw [searchOf?_textSearch, hfields]
    rfl
  · rw [searchCount_textSearch, hcount]

/-- The clause of a conjunctive operand has as many text searches as the operand. -/
theorem Operand.IsConjunctive.clause_counts (hdefault : options.defaultFields = [])
    {operand : Operand} (h : operand.IsConjunctive)
    (hproper : operand.Proper (fun path _ => isOperatorName (options.fieldName path) = false)
      fun _ => True)
    {document : Document} (hclause : operand.clause options = .ok document) :
    operand.Counts options document := by
  have htext (text : FreeText) : options.textClause text = textSearch text.search := by
    rw [Options.textClause, hdefault]
  induction h generalizing document with
  | field path value =>
      cases hproper with
      | field hname =>
          rw [Operand.clause] at hclause
          obtain ⟨hisClause, hnone, hcount⟩ := Options.valueClause_counts hdefault hname hclause
          exact ⟨hisClause, by rw [hnone]; rfl, by rw [hcount, Operand.searchCount]⟩
  | text text =>
      rw [Operand.clause, htext] at hclause
      cases hclause
      exact Operand.counts_textSearch rfl (by rw [Operand.searchCount]) _
  | notField path value =>
      cases hproper with
      | not hproper =>
          cases hproper with
          | field hname =>
              -- The clause is not the negation of one: words that are split off are not negated.
              rw [Operand.clause] at hclause
              obtain ⟨hisClause, hnone, hcount⟩ := Options.valueClause_counts hdefault hname hclause
              refine ⟨hisClause, by rw [hnone]; rfl, ?_⟩
              rw [hcount, Operand.searchCount, Operand.searchCount]
  | notText text =>
      rw [Operand.clause_not (by simp), Operand.clause, htext] at hclause
      obtain rfl : negate (textSearch text.search) = document := Except.ok.inj hclause
      rw [negate_textSearch]
      exact Operand.counts_textSearch rfl (by rw [Operand.searchCount, Operand.searchCount]) _
  | @group branch h ih =>
      cases hproper with
      | group _ some_operand hproper =>
          have hbranch : branch ∈ [branch] := List.mem_singleton_self branch
          rw [Operand.clause_group_branch] at hclause
          obtain ⟨clauses, hclauses, rfl⟩ := map_eq_ok_iff.mp hclause
          have hcounts : List.Forall₂ (Operand.Counts options) branch clauses :=
            Branch.clauses_forall₂ (fun operand hoperand _ =>
              ih operand hoperand (hproper branch hbranch operand hoperand)) hclauses
          exact Branch.conjunction_counts (some_operand branch hbranch) hcounts

end clauses

/-! ### Queries that do not mix fields with free texts -/

section unmixed
variable {options : Options} {p : Path → Value → Prop} {q : FreeText → Prop}

/-- A proper operand without free texts has a field. -/
theorem Operand.Proper.fields_ne_nil {operand : Operand} (h : operand.Proper p q) {nots : Nat}
    (htexts : operand.texts nots = []) : operand.fields ≠ [] := by
  induction h generalizing nots with
  | field _ => simp [Operand.fields]
  | text _ => simp [Operand.texts] at htexts
  | not _ ih =>
      rw [Operand.texts] at htexts
      rw [Operand.fields]
      exact ih htexts
  | @group branches some_branch some_operand _ ih =>
      obtain ⟨branch, branches, rfl⟩ := List.exists_cons_of_ne_nil some_branch
      have hne := some_operand branch (by simp)
      obtain ⟨operand, operands, rfl⟩ := List.exists_cons_of_ne_nil hne
      rw [Operand.texts, Query.texts, Branch.texts, List.append_eq_nil_iff,
        List.append_eq_nil_iff] at htexts
      have hfields := ih _ List.mem_cons_self operand List.mem_cons_self htexts.1.1
      simp [Operand.fields, Query.fields, Branch.fields, hfields]

theorem Branch.innerSearchCount_eq_zero {branch : Branch}
    (h : ∀ operand ∈ branch, operand.fields = [] ∨ operand.searchCount options = 0) :
    Branch.innerSearchCount options branch = 0 := by
  induction branch with
  | nil => rfl
  | cons operand operands ih =>
      obtain ⟨hoperand, hoperands⟩ := List.forall_mem_cons.mp h
      rw [Branch.innerSearchCount, ih hoperands]
      rcases hoperand with hfields | hcount
      · simp [hfields]
      · simp [hcount]

theorem Query.searchCount_eq_zero {query : Query}
    (h : ∀ branch ∈ query, ∀ operand ∈ branch,
      operand.fields ≠ [] ∧ operand.searchCount options = 0) :
    Query.searchCount options query = 0 := by
  induction query with
  | nil => rfl
  | cons branch branches ih =>
      obtain ⟨hbranch, hbranches⟩ := List.forall_mem_cons.mp h
      have hinner := Branch.innerSearchCount_eq_zero fun operand ho => .inr (hbranch operand ho).2
      rw [Query.searchCount, ih hbranches, hinner]
      simpa using fun operand ho => (hbranch operand ho).1

/-- Without free texts, and without words that are split off, there is no text search. -/
theorem Operand.Proper.searchCount_eq_zero (hphrase : options.multiWordValues = .phrase)
    {operand : Operand} (h : operand.Proper p q) {nots : Nat}
    (htexts : operand.texts nots = []) : operand.searchCount options = 0 := by
  induction h generalizing nots with
  | field _ =>
      rw [Operand.searchCount, Options.splitWords?_eq_none hphrase]
      rfl
  | text _ => simp [Operand.texts] at htexts
  | not _ ih =>
      rw [Operand.texts] at htexts
      rw [Operand.searchCount]
      exact ih htexts
  | @group branches _ _ hproper ih =>
      rw [Operand.texts, Query.texts_eq_flatMap, List.flatMap_eq_nil_iff] at htexts
      rw [Operand.searchCount]
      refine Query.searchCount_eq_zero fun branch hbranch operand hoperand => ?_
      have hnone := List.flatMap_eq_nil_iff.mp (htexts branch hbranch) operand hoperand
      exact ⟨(hproper branch hbranch operand hoperand).fields_ne_nil hnone,
        ih branch hbranch operand hoperand hnone⟩

/-- Where no operand mixes fields with free texts, all text searches are joined into one. -/
theorem Branch.searchCount_le_one (hphrase : options.multiWordValues = .phrase) {branch : Branch}
    (hproper : ∀ operand ∈ branch, operand.Proper p q)
    (h : ∀ operand ∈ branch, operand.fields = [] ∨ operand.texts 0 = []) :
    Query.searchCount options [branch] ≤ 1 := by
  have hinner : Branch.innerSearchCount options branch = 0 := by
    refine Branch.innerSearchCount_eq_zero fun operand hoperand => ?_
    refine (h operand hoperand).imp_right fun htexts => ?_
    exact (hproper operand hoperand).searchCount_eq_zero hphrase htexts
  rw [Query.searchCount, Query.searchCount, hinner]
  split <;> simp

end unmixed

/-! ### From the query text -/

/-- **Text searches are joined in every conjunction, but not across groups.**  The filter of a
conjunctive query has as many text searches as the query counts: one for all operands of a branch
that are free texts, and those that groups with fields and split values bring along.  So it has at
most one if no value is split and no operand mixes fields with free texts. -/
theorem Compiler.filter_searchCount {compiler : Compiler} {text : String} {query : Query}
    {document : Document} (hdefault : compiler.options.defaultFields = [])
    (hparse : Query.parse compiler.grammar text = .ok query) (hconjunctive : query.IsConjunctive)
    (h : compiler.compile text = .ok document) :
    document.searchCount = Query.searchCount compiler.options query ∧
      (compiler.options.multiWordValues = .phrase →
        (∀ branch ∈ query, ∀ operand ∈ branch, operand.fields = [] ∨ operand.texts 0 = []) →
        document.searchCount ≤ 1) := by
  have hproper : query.Proper
      (fun path _ => isOperatorName (compiler.options.fieldName path) = false) fun _ => True :=
    (parse_proper hparse).mono
      (fun _ _ hfield => compiler.options.isOperatorName_fieldName hfield) fun _ _ => trivial
  obtain ⟨query', hparse', hcompile⟩ := Compiler.compile_eq_ok_iff.mp h
  obtain rfl : query = query' := Except.ok.inj (hparse.symm.trans hparse')
  rw [Query.compile_eq] at hcompile
  have hcounts := hconjunctive.clause_counts hdefault (Operand.proper_group_iff.mpr hproper)
    hcompile
  have hcount := hcounts.count
  rw [Operand.searchCount] at hcount
  refine ⟨hcount, fun hphrase hunmixed => ?_⟩
  rw [hcount]
  cases hconjunctive with
  | @group branch _ =>
      have hbranch : branch ∈ [branch] := List.mem_singleton_self branch
      exact Branch.searchCount_le_one hphrase (hproper.2 branch hbranch).2 (hunmixed branch hbranch)

/-- The text in the group is joined with the one after it, across the field between them. -/
theorem Compiler.filter_searchCount_joined :
    ∃ (query : Query) (document : Document),
      query = [[.group [[.text (.words ["foo"])]], .not (.field ⟨["a"]⟩ (.quoted .double "b")),
        .text (.words ["bar"])]] ∧
      document = entry Op.and (Datum.ofDocuments
        [textSearch "foo bar", entry "a" (.document (entry Op.ne (.string "b")))]) ∧
      Query.parse {} "(foo) NOT a:\"b\" bar" = .ok query ∧ query.IsConjunctive ∧
      Compiler.compile {} "(foo) NOT a:\"b\" bar" = .ok document ∧
      document.searchCount = Query.searchCount {} query ∧ document.searchCount ≤ 1 := by
  have hparse : Query.parse {} "(foo) NOT a:\"b\" bar" =
      .ok [[.group [[.text (.words ["foo"])]], .not (.field ⟨["a"]⟩ (.quoted .double "b")),
        .text (.words ["bar"])]] := by
    cbv
  have hconjunctive : Query.IsConjunctive
      [[.group [[.text (.words ["foo"])]], .not (.field ⟨["a"]⟩ (.quoted .double "b")),
        .text (.words ["bar"])]] := by
    refine .group (List.forall_mem_cons.mpr ⟨.group ?_, List.forall_mem_cons.mpr ⟨?_, ?_⟩⟩)
    · exact List.forall_mem_singleton.mpr (.text _)
    · exact .notField _ _
    · exact List.forall_mem_singleton.mpr (.text _)
  have hcompile : Compiler.compile {} "(foo) NOT a:\"b\" bar" =
      .ok (entry Op.and (Datum.ofDocuments
        [textSearch "foo bar", entry "a" (.document (entry Op.ne (.string "b")))])) := by
    rw [Compiler.compile, hparse]
    rfl
  obtain ⟨hcount, hle⟩ := Compiler.filter_searchCount rfl hparse hconjunctive hcompile
  refine ⟨_, _, rfl, rfl, hparse, hconjunctive, hcompile, hcount, hle rfl ?_⟩
  simp [Operand.fields, Operand.texts, Query.fields, Branch.fields]

/-- Nothing more holds in general: a text inside of a group with a field is not joined with a text
beside the group, although both are wanted. -/
theorem Compiler.filter_two_searches :
    ¬∀ (compiler : Compiler) (text : String) (query : Query) (document : Document),
      compiler.options.defaultFields = [] → Query.parse compiler.grammar text = .ok query →
      query.IsConjunctive → compiler.compile text = .ok document → document.searchCount ≤ 1 := by
  intro h
  have hparse : Query.parse {} "(foo a:\"b\") bar" =
      .ok [[.group [[.text (.words ["foo"]), .field ⟨["a"]⟩ (.quoted .double "b")]],
        .text (.words ["bar"])]] := by
    cbv
  have hconjunctive : Query.IsConjunctive
      [[.group [[.text (.words ["foo"]), .field ⟨["a"]⟩ (.quoted .double "b")]],
        .text (.words ["bar"])]] := by
    refine .group (List.forall_mem_cons.mpr ⟨.group ?_, List.forall_mem_singleton.mpr (.text _)⟩)
    exact List.forall_mem_cons.mpr ⟨.text _, List.forall_mem_singleton.mpr (.field _ _)⟩
  have hcompile : Compiler.compile {} "(foo a:\"b\") bar" =
      .ok (entry Op.and (Datum.ofDocuments
        [entry Op.and (Datum.ofDocuments [textSearch "foo", entry "a" (.string "b")]),
          textSearch "bar"])) := by
    rw [Compiler.compile, hparse]
    rfl
  exact absurd (h {} _ _ _ rfl hparse hconjunctive hcompile) (by decide)

end QueryFilter
