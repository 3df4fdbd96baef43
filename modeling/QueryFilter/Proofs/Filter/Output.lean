import Mathlib
import QueryFilter.Compiler
import QueryFilter.Proofs.Filter.Clause
import QueryFilter.Proofs.Query.Yield

/-! # What filters are made of

The filter of a query is a clause (`Query.compile_isClause`), provided that no field of the query
and no default field has the name of an operator.  For a query text nothing needs to be provided of
its fields, since the parser takes no such name: this is `Compiler.filter_isClause`, with what it
means for the operators at any depth of the filter.

`Branch.clauses_forall₂` and `Query.clauses_forall₂` say that the clauses stand for the operands, or
the branches, one by one; `Branch.clauses_congr` and `Query.clauses_congr` say that nothing else
matters to them.  `Operand.clause_kept` is the induction over operands for all that the operations
on clauses keep. -/

namespace QueryFilter

open Document

/-! ### Clauses of operands one by one -/

section forall₂
variable {options : Options} {clauses : List Document}

theorem Branch.clauses_forall₂ {branch : Branch} {R : Operand → Document → Prop}
    (hR : ∀ operand ∈ branch, ∀ clause, operand.clause options = .ok clause → R operand clause)
    (h : Branch.clauses options branch = .ok clauses) : List.Forall₂ R branch clauses := by
  induction branch generalizing clauses with
  | nil =>
      cases h
      exact .nil
  | cons operand branch ih =>
      obtain ⟨hoperand, hbranch⟩ := List.forall_mem_cons.mp hR
      rw [Branch.clauses] at h
      split at h
      · cases h
      · next clause hclause =>
        obtain ⟨clauses', hclauses, rfl⟩ := map_eq_ok_iff.mp h
        exact .cons (hoperand clause hclause) (ih hbranch hclauses)

theorem Query.clauses_forall₂ {query : Query} {R : Branch → Document → Prop}
    (hR : ∀ branch ∈ query, ∀ clauses, Branch.clauses options branch = .ok clauses →
      R branch (conjunction clauses))
    (h : Query.clauses options query = .ok clauses) : List.Forall₂ R query clauses := by
  induction query generalizing clauses with
  | nil =>
      cases h
      exact .nil
  | cons branch query ih =>
      obtain ⟨hbranch, hquery⟩ := List.forall_mem_cons.mp hR
      rw [Query.clauses] at h
      split at h
      · cases h
      · next clause hclause =>
        obtain ⟨operands, hoperands, rfl⟩ := map_eq_ok_iff.mp hclause
        obtain ⟨clauses', hclauses, rfl⟩ := map_eq_ok_iff.mp h
        exact .cons (hbranch operands hoperands) (ih hquery hclauses)

/-- The clauses of a branch depend on those of its operands only. -/
theorem Branch.clauses_congr {options' : Options} {branch branch' : Branch}
    (h : List.Forall₂ (fun operand operand' => operand.clause options = operand'.clause options')
      branch branch') : Branch.clauses options branch = Branch.clauses options' branch' := by
  induction h with
  | nil => rfl
  | cons hoperand _ ih => rw [Branch.clauses, Branch.clauses, hoperand, ih]

/-- The clauses of a query depend on those of its branches only. -/
theorem Query.clauses_congr {options' : Options} {query query' : Query}
    (h : List.Forall₂ (fun branch branch' =>
      Branch.clauses options branch = Branch.clauses options' branch') query query') :
    Query.clauses options query = Query.clauses options' query' := by
  induction h with
  | nil => rfl
  | cons hbranch _ ih => rw [Query.clauses, Query.clauses, hbranch, ih]

theorem forall_of_forall₂ {α β : Type} {P : β → Prop} {as : List α} {bs : List β}
    (h : List.Forall₂ (fun _ b => P b) as bs) : ∀ b ∈ bs, P b := by
  induction h with
  | nil => simp
  | cons hb _ ih => exact List.forall_mem_cons.mpr ⟨hb, ih⟩

theorem ne_nil_of_forall₂ {α β : Type} {R : α → β → Prop} {as : List α} {bs : List β}
    (h : List.Forall₂ R as bs) (hne : as ≠ []) : bs ≠ [] := by
  cases h with
  | nil => exact absurd rfl hne
  | cons => simp

theorem all_eq_of_forall₂ {α β : Type} {f : α → Bool} {g : β → Bool} {as : List α} {bs : List β}
    (h : List.Forall₂ (fun a b => g b = f a) as bs) : bs.all g = as.all f := by
  induction h with
  | nil => rfl
  | cons hab _ ih => rw [List.all_cons, hab, ih, List.all_cons]

theorem any_eq_of_forall₂ {α β : Type} {f : α → Bool} {g : β → Bool} {as : List α} {bs : List β}
    (h : List.Forall₂ (fun a b => g b = f a) as bs) : bs.any g = as.any f := by
  induction h with
  | nil => rfl
  | cons hab _ ih => rw [List.any_cons, hab, ih, List.any_cons]

end forall₂

/-! ### What compiling keeps -/

/-- The operations from which filters are built keep `Q`. -/
structure IsKept (Q : Document → Prop) : Prop where
  conjunction : ∀ {clauses : List Document}, clauses ≠ [] → (∀ clause ∈ clauses, Q clause) →
    Q (conjunction clauses)
  disjunction : ∀ {clauses : List Document}, clauses ≠ [] → (∀ clause ∈ clauses, Q clause) →
    Q (disjunction clauses)
  negate : ∀ {clause : Document}, Q clause → Q (negate clause)

section kept
variable {options : Options} {Q : Document → Prop}

theorem Options.multiWordValues_of_splitWords? {value : Value} {words : String × List String}
    (h : options.splitWords? value = some words) : options.multiWordValues = .splitFreeText := by
  unfold Options.splitWords? at h
  split at h
  · split at h
    · next hsplit => exact hsplit
    · cases h
  · cases h

theorem Options.splitWords?_eq_none (hphrase : options.multiWordValues = .phrase) (value : Value) :
    options.splitWords? value = none := by
  cases hwords : options.splitWords? value with
  | none => rfl
  | some words =>
      have hsplit := Options.multiWordValues_of_splitWords? hwords
      rw [hphrase] at hsplit
      cases hsplit

/-- What a value in a field comes to keeps `Q`, if the clause of the field has it and, where words
are split off, the clauses of free texts do. -/
theorem Options.valueClause_kept (hQ : IsKept Q) {negated : Bool}
    {path : Path} (hfield : ∀ value clause, options.fieldClause path value = .ok clause → Q clause)
    (htext : options.multiWordValues = .splitFreeText → ∀ text, Q (options.textClause text))
    {value : Value} {document : Document}
    (h : options.valueClause negated path value = .ok document) : Q document := by
  have hnegated : ∀ {clause}, Q clause → Q (if negated then negate clause else clause) := by
    intro clause hclause
    split
    · exact hQ.negate hclause
    · exact hclause
  unfold Options.valueClause at h
  dsimp only at h
  split at h
  · next first rest hsplit =>
    obtain ⟨clause, hclause, rfl⟩ := map_eq_ok_iff.mp h
    have hrest := htext (Options.multiWordValues_of_splitWords? hsplit) (.words rest)
    have hfirst := hnegated (hfield _ _ hclause)
    exact hQ.conjunction (by simp) (by simpa using ⟨hfirst, hrest⟩)
  · obtain ⟨clause, hclause, rfl⟩ := map_eq_ok_iff.mp h
    exact hnegated (hfield _ _ hclause)

/-- The clause of a negated operand that is no field with a value. -/
theorem Operand.clause_not {operand : Operand} (h : ∀ path value, operand ≠ .field path value) :
    (Operand.not operand).clause options = (operand.clause options).map negate := by
  cases operand with
  | field path value => exact absurd rfl (h path value)
  | text text => rw [Operand.clause.eq_def]
  | not operand => rw [Operand.clause.eq_def]
  | group branches => rw [Operand.clause.eq_def]

/-- Parentheses around a branch. -/
theorem Operand.clause_group_branch (branch : Branch) :
    (Operand.group [branch]).clause options = (Branch.clauses options branch).map conjunction := by
  rw [Operand.clause, Query.clauses, Query.clauses]
  cases Branch.clauses options branch with
  | error e => rfl
  | ok clauses => rfl

/-- What the clauses of all leaves have and the operations keep, the clause of every operand has. -/
theorem Operand.clause_kept (hQ : IsKept Q) {p : Path → Value → Prop}
    {q : FreeText → Prop}
    (hvalue : ∀ path value, p path value → ∀ negated document,
      options.valueClause negated path value = .ok document → Q document)
    (htext : ∀ text, q text → Q (options.textClause text)) {operand : Operand}
    (hproper : operand.Proper p q) {document : Document}
    (h : operand.clause options = .ok document) : Q document := by
  induction hproper generalizing document with
  | field hpath =>
      rw [Operand.clause] at h
      exact hvalue _ _ hpath _ _ h
  | text hq =>
      rw [Operand.clause] at h
      cases h
      exact htext _ hq
  | @not operand hproper ih =>
      by_cases hfield : ∃ path value, operand = .field path value
      · obtain ⟨path, value, rfl⟩ := hfield
        cases hproper with
        | field hpath =>
            rw [Operand.clause] at h
            exact hvalue _ _ hpath _ _ h
      · rw [Operand.clause_not fun path value heq => hfield ⟨path, value, heq⟩] at h
        obtain ⟨clause, hclause, rfl⟩ := map_eq_ok_iff.mp h
        exact hQ.negate (ih hclause)
  | @group branches some_branch some_operand hproper ih =>
      rw [Operand.clause] at h
      obtain ⟨clauses, hclauses, rfl⟩ := map_eq_ok_iff.mp h
      have hbranches : List.Forall₂ (fun _ clause => Q clause) branches clauses := by
        refine Query.clauses_forall₂ (fun branch hbranch operands hoperands => ?_) hclauses
        have hall := Branch.clauses_forall₂ (R := fun _ clause => Q clause)
          (fun operand hoperand clause hclause => ih branch hbranch operand hoperand hclause)
          hoperands
        exact hQ.conjunction (ne_nil_of_forall₂ hall (some_operand branch hbranch))
          (forall_of_forall₂ hall)
      exact hQ.disjunction (ne_nil_of_forall₂ hbranches some_branch) (forall_of_forall₂ hbranches)

/-- The filter of a query is that of the query in parentheses. -/
theorem Query.compile_eq (query : Query) :
    query.compile options = (Operand.group query).clause options := by
  rw [Query.compile, Operand.clause]

end kept

/-! ### Compiling into the grammar -/

section compile
variable {options : Options} {texts : Prop}

/-- What `options` need for their filters to be clauses: names of fields as default fields, and
`texts` wherever they make a text search of the words of a value. -/
structure Options.Fits (options : Options) (texts : Prop) : Prop where
  names : ∀ field ∈ options.defaultFields, isOperatorName field = false
  split : options.multiWordValues = .splitFreeText → options.defaultFields = [] → texts

theorem Options.textClause_isClause
    (hnames : ∀ field ∈ options.defaultFields, isOperatorName field = false)
    (htexts : options.defaultFields = [] → texts) (text : FreeText) :
    IsClause texts (options.textClause text) := by
  have hentry : ∀ field ∈ options.defaultFields,
      IsClause texts (entry field (.document text.condition)) := fun field hfield =>
    entry_isClause (hnames field hfield) (.plain text.condition_isLeaf)
  unfold Options.textClause
  match hfields : options.defaultFields with
  | [] => exact .text (htexts hfields) _
  | [field] => exact hentry field (by simp [hfields])
  | first :: second :: rest =>
      rw [hfields] at hentry hnames
      refine .or (by simp) (List.forall_mem_map.mpr hentry) ?_
      exact ⟨_, List.mem_map_of_mem List.mem_cons_self,
        searchOf?_field (hnames first (by simp)) _⟩

theorem Options.fieldClause_isClause {path : Path}
    (hpath : isOperatorName (options.fieldName path) = false) {value : Value} {clause : Document}
    (h : options.fieldClause path value = .ok clause) : IsClause texts clause := by
  obtain ⟨leaf, rfl, hleaf⟩ := Options.fieldClause_eq_ok h
  exact entry_isClause hpath (.plain hleaf)

/-- The operations on clauses keep the grammar. -/
theorem isKept_isClause (texts : Prop) : IsKept (IsClause texts) :=
  ⟨conjunction_isClause, disjunction_isClause, fun h => h.negate⟩

theorem Operand.clause_isClause (hfits : options.Fits texts) {operand : Operand}
    (hproper : operand.Proper (fun path _ => isOperatorName (options.fieldName path) = false)
      fun _ => options.defaultFields = [] → texts)
    {document : Document} (h : operand.clause options = .ok document) :
    IsClause texts document := by
  have hkept := isKept_isClause texts
  refine Operand.clause_kept hkept ?_ ?_ hproper h
  · intro path value hpath negated document hclause
    refine Options.valueClause_kept hkept ?_ ?_ hclause
    · exact fun value clause h => Options.fieldClause_isClause hpath h
    · exact fun hsplit => Options.textClause_isClause hfits.names (hfits.split hsplit)
  · exact fun text htexts => Options.textClause_isClause hfits.names htexts text

theorem Query.compile_isClause (hfits : options.Fits texts) {query : Query}
    (hproper : query.Proper (fun path _ => isOperatorName (options.fieldName path) = false)
      fun _ => options.defaultFields = [] → texts)
    {document : Document} (h : query.compile options = .ok document) :
    IsClause texts document := by
  rw [Query.compile_eq] at h
  exact Operand.clause_isClause hfits (Operand.proper_group_iff.mpr hproper) h

end compile

/-! ### Entries at any depth -/

mutual

/-- The entries at any depth of the value. -/
def Datum.nested : Datum → List (String × Datum)
  | .array items => Datum.nestedItems items
  | .document entries => Document.nested entries
  | _ => []

/-- The entries at any depth of the items. -/
def Datum.nestedItems : List Datum → List (String × Datum)
  | [] => []
  | item :: items => item.nested ++ Datum.nestedItems items

/-- The entries of the document and those at any depth of their values. -/
def Document.nested : Document → List (String × Datum)
  | [] => []
  | (key, value) :: entries => (key, value) :: (value.nested ++ Document.nested entries)

end

theorem Datum.mem_nested_ofDocuments {e : String × Datum} {documents : List Document} :
    e ∈ (Datum.ofDocuments documents).nested ↔ ∃ document ∈ documents, e ∈ document.nested := by
  rw [Datum.ofDocuments, Datum.nested]
  induction documents with
  | nil => simp [Datum.nestedItems]
  | cons document documents ih => simp [Datum.nestedItems, Datum.nested, ih]

theorem Document.mem_nested {e : String × Datum} {document : Document} :
    e ∈ document.nested ↔ ∃ e' ∈ document, e = e' ∨ e ∈ e'.2.nested := by
  induction document with
  | nil => simp [Document.nested]
  | cons e' document ih => simp [Document.nested, ih, or_assoc]

/-- The operators that neither join nor negate. -/
def Op.plain : List String :=
  [Op.gt, Op.gte, Op.lt, Op.lte, Op.present, Op.regex, Op.options, Op.text, Op.search]

/-- The operators that filters are built from. -/
def Op.all : List String := [Op.and, Op.or, Op.ne] ++ Op.plain

/-- How an entry may use operators: it has one of those above, it does not put `$ne` into `$ne`, and
it joins at least two documents. -/
structure IsSafeEntry (e : String × Datum) : Prop where
  known : isOperatorName e.1 = true → e.1 ∈ Op.all
  ne : e.1 = Op.ne → ∀ inner ∈ e.2.nested, inner.1 ≠ Op.ne
  two : e.1 = Op.and ∨ e.1 = Op.or →
    ∃ documents : List Document, e.2 = Datum.ofDocuments documents ∧ 2 ≤ documents.length

theorem IsSafeEntry.of_ne {e : String × Datum} (hknown : isOperatorName e.1 = true → e.1 ∈ Op.all)
    (hne : e.1 ≠ Op.ne) (hand : e.1 ≠ Op.and) (hor : e.1 ≠ Op.or) : IsSafeEntry e := by
  refine ⟨hknown, fun h => absurd h hne, fun h => ?_⟩
  rcases h with h | h
  · exact absurd h hand
  · exact absurd h hor

theorem IsSafeEntry.of_field {e : String × Datum} (h : isOperatorName e.1 = false) :
    IsSafeEntry e := by
  have hne : ∀ {key}, isOperatorName key = true → e.1 ≠ key := by
    rintro _ hkey rfl
    rw [h] at hkey
    cases hkey
  refine .of_ne (fun hop => absurd rfl (hne hop)) (hne ?_) (hne ?_) (hne ?_)
  · decide
  · decide
  · decide

theorem IsSafeEntry.of_mem_plain {e : String × Datum} (h : e.1 ∈ Op.plain) : IsSafeEntry e := by
  have hne : ∀ {key}, key ∉ Op.plain → e.1 ≠ key := by
    rintro _ hkey rfl
    exact hkey h
  refine .of_ne (fun _ => List.mem_append_right _ h) (hne ?_) (hne ?_) (hne ?_)
  · decide
  · decide
  · decide

theorem Datum.IsNumber.nested_eq_nil {value : Datum} (h : value.IsNumber ∨ value.IsDate) :
    value.nested = [] := by
  rcases h with h | h
  · cases h <;> rfl
  · cases h
    rfl

/-- The keys inside a leaf are operators that neither join nor negate. -/
theorem Datum.IsLeaf.mem_nested {leaf : Datum} (h : leaf.IsLeaf) {e : String × Datum}
    (he : e ∈ leaf.nested) : e.1 ∈ Op.plain := by
  have hdocument : ∀ {document : Document}, leaf = .document document →
      (∀ e ∈ document, e.1 ∈ Op.plain ∧ e.2.nested = []) → e.1 ∈ Op.plain := by
    rintro document rfl hall
    rw [Datum.nested, Document.mem_nested] at he
    obtain ⟨e', he', rfl | hin⟩ := he
    · exact (hall e he').1
    · rw [(hall e' he').2] at hin
      cases hin
  cases h with
  | compared hkey hvalue =>
      refine hdocument rfl (List.forall_mem_singleton.mpr ⟨?_, IsNumber.nested_eq_nil hvalue⟩)
      exact List.mem_append_left [Op.present, Op.regex, Op.options, Op.text, Op.search] hkey
  | @range lower upper hbounds =>
      have hlower : lower.nested = [] := IsNumber.nested_eq_nil (hbounds.imp And.left And.left)
      have hupper : upper.nested = [] := IsNumber.nested_eq_nil (hbounds.imp And.right And.right)
      refine hdocument rfl (List.forall_mem_cons.mpr ⟨⟨by simp [Op.plain], hlower⟩, ?_⟩)
      exact List.forall_mem_singleton.mpr ⟨by simp [Op.plain], hupper⟩
  | present => exact hdocument rfl (List.forall_mem_singleton.mpr ⟨by simp [Op.plain], rfl⟩)
  | regex pattern => exact hdocument rfl (List.forall_mem_singleton.mpr ⟨by simp [Op.plain], rfl⟩)
  | regexIgnoringCase pattern =>
      refine hdocument rfl (List.forall_mem_cons.mpr ⟨⟨by simp [Op.plain], rfl⟩, ?_⟩)
      exact List.forall_mem_singleton.mpr ⟨by simp [Op.plain], rfl⟩
  | _ => cases he

theorem Datum.IsCondition.isSafeEntry {condition : Datum} (h : condition.IsCondition) :
    ∀ e ∈ condition.nested, IsSafeEntry e := by
  intro e he
  cases h with
  | plain hleaf => exact .of_mem_plain (hleaf.mem_nested he)
  | @negated leaf hleaf =>
      rw [Datum.nested, Document.mem_nested, entry] at he
      obtain ⟨e', he', rfl | hin⟩ := he
      · rw [List.mem_singleton.mp he']
        have hjoin : ¬(Op.ne = Op.and ∨ Op.ne = Op.or) := by decide
        refine ⟨fun _ => by simp [Op.all], fun _ inner hinner hne => ?_, fun h => absurd h hjoin⟩
        have hmem := hleaf.mem_nested hinner
        rw [hne] at hmem
        exact absurd hmem (by decide)
      · rw [List.mem_singleton.mp he'] at hin
        exact .of_mem_plain (hleaf.mem_nested hin)

theorem IsSafeEntry.of_join {key : String} (hkey : key = Op.and ∨ key = Op.or)
    {clauses : List Document} (two : 2 ≤ clauses.length)
    (each : ∀ clause ∈ clauses, ∀ e ∈ clause.nested, IsSafeEntry e) :
    ∀ e ∈ (entry key (Datum.ofDocuments clauses)).nested, IsSafeEntry e := by
  intro e he
  rw [Document.mem_nested, entry] at he
  obtain ⟨e', he', rfl | hin⟩ := he
  · rw [List.mem_singleton.mp he']
    refine ⟨fun _ => ?_, fun hne => ?_, fun _ => ⟨clauses, rfl, two⟩⟩
    · rcases hkey with rfl | rfl
      · simp [Op.all]
      · simp [Op.all]
    · have hne : key = Op.ne := hne
      rw [hne] at hkey
      exact absurd hkey (by decide)
  · rw [List.mem_singleton.mp he', Datum.mem_nested_ofDocuments] at hin
    obtain ⟨clause, hclause, hin⟩ := hin
    exact each clause hclause e hin

theorem Document.IsClause.isSafeEntry {texts : Prop} {document : Document}
    (h : IsClause texts document) : ∀ e ∈ document.nested, IsSafeEntry e := by
  induction h with
  | text allowed search =>
      intro e he
      rw [textSearch, entry, entry, Document.nested, Datum.nested, Document.nested] at he
      rcases List.mem_cons.mp he with rfl | he
      · exact .of_mem_plain (by simp [Op.plain])
      · simp only [Datum.nested, Document.nested, List.append_nil, List.mem_singleton] at he
        rw [he]
        exact .of_mem_plain (by simp [Op.plain])
  | and two _ _ ih => exact .of_join (.inl rfl) two ih
  | or two _ _ ih => exact .of_join (.inr rfl) two ih
  | fields some_field h =>
      intro e he
      obtain ⟨e', he', rfl | hin⟩ := Document.mem_nested.mp he
      · exact .of_field (h.names e he')
      · exact (h.conditions e' he').isSafeEntry e hin

/-! ### From the query text -/

theorem isOperatorName_text {first : String} (hfirst : first ≠ "") (rest : List String) :
    isOperatorName (Path.text ⟨first :: rest⟩) = isOperatorName first := by
  have hchars : first.toList ≠ [] := by simpa using hfirst
  obtain ⟨c, cs, hcs⟩ := List.exists_cons_of_ne_nil hchars
  rw [isOperatorName, isOperatorName, Path.text, String.toList_intercalate, List.map_cons, hcs]
  cases rest with
  | nil => simp
  | cons second rest => simp [List.intercalate_cons_cons]

theorem Path.text_not_operator {path : Path} (hne : path.segments ≠ [])
    (h : ∀ segment ∈ path.segments, segment ≠ "" ∧ isOperatorName segment = false) :
    isOperatorName path.text = false := by
  obtain ⟨segments⟩ := path
  cases segments with
  | nil => exact absurd rfl hne
  | cons first rest =>
      obtain ⟨hfirst, hname⟩ := h first (by simp)
      rw [isOperatorName_text hfirst, hname]

/-- A field that the parser takes does not stand under the name of an operator. -/
theorem Options.isOperatorName_fieldName (options : Options) {path : Path} {value : Value}
    (h : IsProperField path value) : isOperatorName (options.fieldName path) = false := by
  obtain ⟨hne, hsegments, -⟩ := h
  have hrename : isOperatorName path.renameIdentifier.text = false := by
    unfold Path.renameIdentifier
    split
    · refine Path.text_not_operator (by simp) fun segment hsegment => ?_
      rcases List.mem_append.mp hsegment with hmem | hmem
      · exact hsegments segment (List.dropLast_subset _ hmem)
      · rw [List.mem_singleton.mp hmem]
        decide
    · exact Path.text_not_operator hne hsegments
  unfold Options.fieldName
  split
  · exact hrename
  · exact Path.text_not_operator hne hsegments

/-- A text has the filter of the query that is read off it. -/
theorem Compiler.compile_eq_ok_iff {compiler : Compiler} {text : String} {document : Document} :
    compiler.compile text = .ok document ↔ ∃ query,
      Query.parse compiler.grammar text = .ok query ∧
        query.compile compiler.options = .ok document := by
  unfold Compiler.compile
  cases Query.parse compiler.grammar text with
  | error e => simp
  | ok query => cases hcompile : query.compile compiler.options <;> simp [hcompile]

/-- **Filters are clauses.**  Whatever the query text, its filter is in the grammar of clauses, with
text searches only if there are no default fields.  So every operator in it, at any depth, is one of
those above, `$ne` does not stand inside `$ne`, and `$and` and `$or` join at least two clauses. -/
theorem Compiler.filter_isClause {compiler : Compiler} {text : String} {document : Document}
    (hdefault : ∀ field ∈ compiler.options.defaultFields, isOperatorName field = false)
    (h : compiler.compile text = .ok document) :
    IsClause (compiler.options.defaultFields = []) document ∧
      ∀ e ∈ document.nested, IsSafeEntry e := by
  unfold Compiler.compile at h
  split at h
  · cases h
  · next query hparse =>
    split at h
    · cases h
    · next document' hcompile =>
      cases h
      have hproper : query.Proper
          (fun path _ => isOperatorName (compiler.options.fieldName path) = false)
          fun _ => compiler.options.defaultFields = [] → compiler.options.defaultFields = [] :=
        (parse_proper hparse).mono
          (fun _ _ hfield => compiler.options.isOperatorName_fieldName hfield) fun _ _ => id
      have hclause := Query.compile_isClause ⟨hdefault, fun _ => id⟩ hproper hcompile
      exact ⟨hclause, hclause.isSafeEntry⟩

/-- A value that looks like an operator stays a value. -/
theorem Compiler.filter_isClause_dollar :
    ∃ (compiler : Compiler) (document : Document),
      document = entry Op.and (Datum.ofDocuments
        [entry Op.or (Datum.ofDocuments
            [entry "a" (.document (entry Op.ne (.bool true))),
              entry "b" (.document (entry Op.ne (.string "$where")))]),
          entry "title" (.document (regexCondition "x" true)),
          entry "title" (.document (entry Op.ne (.document (regexCondition "y" true))))]) ∧
      compiler.options.defaultFields = ["title"] ∧
      compiler.compile "NOT (a:true b:\"$where\") x NOT y" = .ok document ∧
      IsClause (compiler.options.defaultFields = []) document ∧
      ∀ e ∈ document.nested, IsSafeEntry e := by
  have hdefault : ∀ field ∈ ["title"], isOperatorName field = false := by decide
  refine ⟨{ options := { defaultFields := ["title"] } }, _, rfl, rfl, ?_⟩
  exact (fun h => ⟨h, Compiler.filter_isClause hdefault h⟩ : _ → _ ∧ _) (by cbv)

end QueryFilter
