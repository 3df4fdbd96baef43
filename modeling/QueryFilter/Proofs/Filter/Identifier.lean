import QueryFilter.Proofs.Filter.Fault
import QueryFilter.Proofs.Query.RoundTrip

/-! # Identifier fields in filters

When the values of identifier fields are converted, a filter compares identifier fields with object
ids and with nothing else, at any depth, and when they are renamed too, no field in it is called
`id`; and every text of twenty-four hexadecimal digits is converted, quoted or not
(`Compiler.filter_identifiers`).

The first part is an invariant of all entries of a filter.  `IsPolicy` says which properties of
entries can be one: they must hold of all operators, and negating a value must keep them.
Conjunction, disjunction and negation keep every policy everywhere in a document
(`isKept_everywhere`), so only the clauses of fields and of free texts have to be looked at. -/

namespace QueryFilter

open Document

/-! ### Policies for entries -/

/-- A property of entries that the operations on clauses cannot break. -/
structure IsPolicy (P : String × Datum → Prop) : Prop where
  operator : ∀ key ∈ Op.all, ∀ value, P (key, value)
  negateValue : ∀ {key : String} {value : Datum}, P (key, value) → P (key, negateValue value)

/-- Every entry at any depth of the document has the property. -/
def Document.Everywhere (P : String × Datum → Prop) (document : Document) : Prop :=
  ∀ e ∈ document.nested, P e

section everywhere
variable {P : String × Datum → Prop} {document other : Document} {clauses : List Document}

theorem everywhere_append (h : document.Everywhere P) (h' : other.Everywhere P) :
    Document.Everywhere P (document ++ other) := by
  intro e he
  obtain ⟨e', he', hin⟩ := Document.mem_nested.mp he
  rcases List.mem_append.mp he' with he' | he'
  · exact h e (Document.mem_nested.mpr ⟨e', he', hin⟩)
  · exact h' e (Document.mem_nested.mpr ⟨e', he', hin⟩)

theorem everywhere_entry {key : String} {value : Datum} (hkey : P (key, value))
    (hvalue : ∀ e ∈ value.nested, P e) : (entry key value).Everywhere P := by
  intro e he
  obtain ⟨e', he', hin⟩ := Document.mem_nested.mp he
  obtain rfl := List.mem_singleton.mp he'
  rcases hin with rfl | hin
  · exact hkey
  · exact hvalue e hin

theorem gather_everywhere {merged : Document} (hmerged : merged.Everywhere P)
    (h : ∀ clause ∈ clauses, clause.Everywhere P) : (gather merged clauses).1.Everywhere P :=
  gather_keeps (fun _ clause hclause _ hmerged => everywhere_append hmerged (h clause hclause))
    hmerged

/-- Negating a value adds a `$ne` around it, or takes one away. -/
theorem mem_nested_negateValue {value : Datum} {e : String × Datum}
    (he : e ∈ (negateValue value).nested) : e = (Op.ne, value) ∨ e ∈ value.nested := by
  have hwrapped (value : Datum) (he : e ∈ (Datum.document (entry Op.ne value)).nested) :
      e = (Op.ne, value) ∨ e ∈ value.nested := by
    simpa [Datum.nested, entry, Document.nested] using he
  unfold negateValue at he
  split at he
  · next key inner =>
    split at he
    · exact .inr (by simp [Datum.nested, Document.nested, he])
    · exact hwrapped _ he
  · exact hwrapped _ he

theorem negateItems_document (entries : Document) (items : List Datum) :
    negateItems (.document entries :: items) = negate entries :: negateItems items := by
  match entries with
  | [] => simp [negateItems, negate]
  | [(key, value)] => simp [negateItems, negate]
  | first :: second :: rest => simp [negateItems, negate]

/-! ### The operations on clauses -/

variable (hP : IsPolicy P)
include hP

theorem everywhere_join {key : String} (hkey : key ∈ Op.all)
    (h : ∀ clause ∈ clauses, clause.Everywhere P) :
    (entry key (Datum.ofDocuments clauses)).Everywhere P := by
  refine everywhere_entry (hP.operator key hkey _) fun e he => ?_
  obtain ⟨clause, hclause, hin⟩ := Datum.mem_nested_ofDocuments.mp he
  exact h clause hclause e hin

theorem everywhere_textSearch (search : String) : (textSearch search).Everywhere P := by
  have hsearch : (entry Op.search (.string search)).Everywhere P :=
    everywhere_entry (hP.operator Op.search (by simp [Op.all, Op.plain]) _) (by simp [Datum.nested])
  exact everywhere_entry (hP.operator Op.text (by simp [Op.all, Op.plain]) _) hsearch

theorem joinSearches_everywhere (h : ∀ clause ∈ clauses, clause.Everywhere P) :
    ∀ clause ∈ joinSearches clauses, clause.Everywhere P := by
  intro clause hclause
  rcases mem_placeSearch hclause with ⟨rfl, -⟩ | ⟨hmem, -⟩
  · exact everywhere_textSearch hP _
  · exact h clause hmem

theorem conjunction_everywhere (h : ∀ clause ∈ clauses, clause.Everywhere P) :
    (conjunction clauses).Everywhere P := by
  by_cases hne : clauses = []
  · subst hne
    exact everywhere_join hP (by simp [Op.all]) h
  have hjoin := joinSearches_everywhere hP h
  have hmerged : (gather [] (joinSearches clauses)).1.Everywhere P :=
    gather_everywhere (by simp [Everywhere, Document.nested]) hjoin
  have happart := gather_sublist [] (joinSearches clauses)
  rcases conjunction_cases hne with
    ⟨clause, hc, heq⟩ | ⟨merged, hg, heq⟩ | ⟨merged, places, hg, -, heq⟩
  · rw [heq]
    exact hjoin clause (by simp [hc])
  · rw [hg] at hmerged
    rw [heq]
    exact hmerged
  · rw [hg] at hmerged happart
    rw [heq]
    refine everywhere_join hP (by simp [Op.all]) fun clause hclause => ?_
    obtain ⟨place, hplace, rfl⟩ := List.mem_map.mp hclause
    cases place with
    | none => exact hmerged
    | some clause => exact hjoin clause (happart.subset (List.mem_filterMap.mpr ⟨_, hplace, rfl⟩))

theorem disjunction_everywhere (h : ∀ clause ∈ clauses, clause.Everywhere P) :
    (disjunction clauses).Everywhere P := by
  unfold disjunction
  split
  · exact h _ (by simp)
  · split
    · exact everywhere_textSearch hP _
    · exact everywhere_join hP (by simp [Op.all]) h

theorem negateLeaf_everywhere {key : String} {value : Datum} (hkey : P (key, value))
    (hvalue : ∀ e ∈ value.nested, P e) : (negateLeaf key value).Everywhere P := by
  unfold negateLeaf
  split
  · exact everywhere_textSearch hP _
  · refine everywhere_entry (hP.negateValue hkey) fun e he => ?_
    rcases mem_nested_negateValue he with rfl | hin
    · exact hP.operator Op.ne (by simp [Op.all]) value
    · exact hvalue e hin

theorem everywhere_of_negateEntries {entries : List (String × Datum)}
    (h : ∀ clause ∈ negateEntries entries, clause.Everywhere P) :
    (negate entries).Everywhere P := by
  unfold negate
  split
  · exact h _ (by simp [negateEntries])
  · exact everywhere_join hP (by simp [Op.all]) h

omit hP

-- The three negations call each other on parts of a value, so each is given the policy for all
-- entries of its part.
mutual

theorem negateEntry_everywhere (hP : IsPolicy P) (key : String) (value : Datum)
    (hkey : P (key, value)) (hvalue : ∀ e ∈ value.nested, P e) :
    (negateEntry key value).Everywhere P := by
  cases value with
  | array items =>
      have hitems := negateItems_everywhere hP items hvalue
      rw [negateEntry]
      split
      · exact conjunction_everywhere hP hitems
      · split
        · exact everywhere_join hP (by simp [Op.all]) hitems
        · exact negateLeaf_everywhere hP hkey hvalue
  | _ => exact negateLeaf_everywhere hP hkey hvalue

theorem negateItems_everywhere (hP : IsPolicy P) (items : List Datum)
    (h : ∀ e ∈ Datum.nestedItems items, P e) :
    ∀ clause ∈ negateItems items, clause.Everywhere P := by
  match items with
  | [] => simp [negateItems]
  | item :: items =>
      rw [Datum.nestedItems, List.forall_mem_append] at h
      have hmore := negateItems_everywhere hP items h.2
      cases item with
      | document entries =>
          have hentries := negateEntries_everywhere hP entries h.1
          rw [negateItems_document]
          exact List.forall_mem_cons.mpr ⟨everywhere_of_negateEntries hP hentries, hmore⟩
      -- An item that is no document has no negation.
      | _ => exact hmore

theorem negateEntries_everywhere (hP : IsPolicy P) (entries : List (String × Datum))
    (h : ∀ e ∈ Document.nested entries, P e) :
    ∀ clause ∈ negateEntries entries, clause.Everywhere P := by
  match entries with
  | [] => simp [negateEntries]
  | (key, value) :: entries =>
      rw [Document.nested, List.forall_mem_cons, List.forall_mem_append] at h
      obtain ⟨hkey, hvalue, hmore⟩ := h
      rw [negateEntries]
      exact List.forall_mem_cons.mpr ⟨negateEntry_everywhere hP key value hkey hvalue,
        negateEntries_everywhere hP entries hmore⟩

end

/-- Conjunction, disjunction and negation keep every policy everywhere. -/
theorem isKept_everywhere (hP : IsPolicy P) : IsKept (Document.Everywhere P) :=
  ⟨fun _ => conjunction_everywhere hP, fun _ => disjunction_everywhere hP,
    fun h => everywhere_of_negateEntries hP (negateEntries_everywhere hP _ h)⟩

end everywhere

/-! ### Names of identifier fields -/

namespace Path

/-- The text of a path ends with its last segment, with a dot in front if there are more. -/
theorem text_concat (init : List String) (last : String) :
    text ⟨init ++ [last]⟩ = last ∨ ∃ before, text ⟨init ++ [last]⟩ = before ++ "." ++ last := by
  cases init with
  | nil => exact .inl String.intercalate_singleton
  | cons first init =>
      refine .inr ⟨".".intercalate (first :: init), ?_⟩
      rw [text, String.intercalate_append_of_ne_nil (by simp) (by simp),
        String.intercalate_singleton]

theorem last?_ofText_dot (before last : String) :
    (ofText (before ++ "." ++ last)).last? = (ofText last).last? := by
  have hsplit : (ofText (before ++ "." ++ last)).segments =
      (ofText before).segments ++ (ofText last).segments := by
    simp [ofText, List.splitOn_append_cons_self]
  rw [last?, hsplit, List.getLast?_append_of_ne_nil _ (segments_ofText_ne_nil last), last?]

/-- The last segment of a path, cut at its dots, ends the text of the path, cut at its dots. -/
theorem last?_ofText_text {path : Path} {last : String} (h : path.last? = some last) :
    (ofText path.text).last? = (ofText last).last? := by
  obtain ⟨init, hinit⟩ := List.getLast?_eq_some_iff.mp h
  obtain ⟨segments⟩ := path
  obtain rfl : segments = init ++ [last] := hinit
  rcases text_concat init last with htext | ⟨before, htext⟩
  · rw [htext]
  · rw [htext, last?_ofText_dot]

theorem last?_ofText_renameIdentifier {path : Path} (h : ofText path.text = path) :
    (ofText path.renameIdentifier.text).last? =
      if path.last? = some idAlias then some idKey else path.last? := by
  unfold renameIdentifier
  split
  · have hlast : last? ⟨path.segments.dropLast ++ [idKey]⟩ = some idKey := by simp [last?]
    rw [last?_ofText_text hlast]
    decide
  · rw [h]

end Path

/-! ### The policy for identifier fields -/

/-- An identifier field is compared with an object id, and if identifiers are renamed, no field is
called `id`. -/
structure Options.IsIdentifierEntry (options : Options) (e : String × Datum) : Prop where
  value : (Path.ofText e.1).isIdentifier = true → ∃ id : ObjectId,
    e.2 = .objectId id ∨ e.2 = .document (entry Op.ne (.objectId id))
  name : options.renameIdentifiers = true → (Path.ofText e.1).last? ≠ some idAlias

section policy
variable {options : Options}

theorem Options.isIdentifierEntry_of_ne {e : String × Datum}
    (h : (Path.ofText e.1).isIdentifier = false) : options.IsIdentifierEntry e := by
  refine ⟨fun hid => ?_, fun _ hname => ?_⟩
  · rw [h] at hid
    cases hid
  · simp [Path.isIdentifier, hname] at h

theorem Options.isPolicy_isIdentifierEntry (options : Options) :
    IsPolicy options.IsIdentifierEntry where
  operator := by
    intro key hkey value
    have hall : ∀ key ∈ Op.all, (Path.ofText key).isIdentifier = false := by decide
    exact Options.isIdentifierEntry_of_ne (hall key hkey)
  negateValue := by
    intro key value h
    refine ⟨fun hid => ?_, h.name⟩
    obtain ⟨id, rfl | rfl⟩ := h.value hid
    · exact ⟨id, .inr rfl⟩
    · exact ⟨id, .inl (negateValue_negated _)⟩

/-- The name under which a field stands is that of an identifier if the field is one. -/
theorem Options.isIdentifier_fieldName (options : Options) {path : Path}
    (h : Path.ofText path.text = path) :
    (Path.ofText (options.fieldName path)).isIdentifier = path.isIdentifier := by
  unfold Options.fieldName
  split
  · rw [Path.isIdentifier, Path.last?_ofText_renameIdentifier h, Path.isIdentifier]
    split
    · next halias => simp [halias]
    · rfl
  · rw [h]

theorem Options.last?_fieldName_ne {path : Path} (h : Path.ofText path.text = path)
    (hrename : options.renameIdentifiers = true) :
    (Path.ofText (options.fieldName path)).last? ≠ some idAlias := by
  rw [Options.fieldName, if_pos hrename, Path.last?_ofText_renameIdentifier h]
  split
  · decide
  · assumption

/-- Where values are converted, a clause of a field has an object id. -/
theorem Options.fieldClause_eq_objectId {path : Path} {value : Value} {clause : Document}
    (hid : (options.convertIdentifiers && path.isIdentifier) = true)
    (h : options.fieldClause path value = .ok clause) :
    ∃ id, clause = entry (options.fieldName path) (.objectId id) := by
  unfold Options.fieldClause at h
  split at h
  · cases h
  · dsimp only [Options.clauseOf] at h
    rw [if_pos hid] at h
    split at h
    · split at h
      · next id _ =>
        cases h
        exact ⟨id, rfl⟩
      · cases h
    · cases h

theorem Options.fieldClause_everywhere (hconvert : options.convertIdentifiers = true) {path : Path}
    (hpath : Path.ofText path.text = path) {value : Value} {clause : Document}
    (h : options.fieldClause path value = .ok clause) :
    clause.Everywhere options.IsIdentifierEntry := by
  have hname := options.isIdentifier_fieldName hpath
  cases hid : path.isIdentifier with
  | true =>
      have hboth : (options.convertIdentifiers && path.isIdentifier) = true := by
        simp [hconvert, hid]
      obtain ⟨id, rfl⟩ := Options.fieldClause_eq_objectId hboth h
      refine everywhere_entry ⟨fun _ => ⟨id, .inl rfl⟩, Options.last?_fieldName_ne hpath⟩ ?_
      simp [Datum.nested]
  | false =>
      obtain ⟨leaf, rfl, hleaf⟩ := Options.fieldClause_eq_ok h
      refine everywhere_entry (Options.isIdentifierEntry_of_ne (hname.trans hid)) fun e he => ?_
      exact options.isPolicy_isIdentifierEntry.operator e.1
        (List.mem_append_right _ (hleaf.mem_nested he)) e.2

theorem Options.textClause_everywhere
    (hdefault : ∀ field ∈ options.defaultFields, (Path.ofText field).isIdentifier = false)
    (text : FreeText) : (options.textClause text).Everywhere options.IsIdentifierEntry := by
  have hpolicy := options.isPolicy_isIdentifierEntry
  have hentry : ∀ field ∈ options.defaultFields,
      (entry field (.document text.condition)).Everywhere options.IsIdentifierEntry := by
    intro field hfield
    refine everywhere_entry (Options.isIdentifierEntry_of_ne (hdefault field hfield)) fun e he => ?_
    exact hpolicy.operator e.1
      (List.mem_append_right _ (text.condition_isLeaf.mem_nested he)) e.2
  unfold Options.textClause
  match hfields : options.defaultFields with
  | [] => exact everywhere_textSearch hpolicy _
  | [field] => exact hentry field (by simp [hfields])
  | first :: second :: rest =>
      rw [hfields] at hentry
      exact everywhere_join hpolicy (by simp [Op.all]) (List.forall_mem_map.mpr hentry)

/-- The path of a field that is read is the field name, cut at its dots. -/
theorem readLeaf_path {tokens rest : List Token} {operand : Operand}
    (h : readLeaf tokens = .ok (operand, rest)) :
    operand.Proper (fun path _ => Path.ofText path.text = path) fun _ => True := by
  rcases readLeaf_cases h with ⟨field, value, after, -, -, -, rfl⟩ | ⟨word, words, -, rfl⟩ |
    ⟨text, -, rfl⟩ | ⟨quote, text, -, rfl⟩
  · exact .field (by rw [Path.text_ofText])
  · exact .text trivial
  · exact .text trivial
  · exact .text trivial

theorem Query.compile_everywhere (hconvert : options.convertIdentifiers = true)
    (hdefault : ∀ field ∈ options.defaultFields, (Path.ofText field).isIdentifier = false)
    {query : Query}
    (hproper : query.Proper (fun path _ => Path.ofText path.text = path) fun _ => True)
    {document : Document} (h : query.compile options = .ok document) :
    document.Everywhere options.IsIdentifierEntry := by
  have hkept := isKept_everywhere options.isPolicy_isIdentifierEntry
  have htext := Options.textClause_everywhere hdefault
  rw [Query.compile_eq] at h
  refine Operand.clause_kept hkept ?_ (fun text _ => htext text)
    (Operand.proper_group_iff.mpr hproper) h
  intro path value hpath negated document hclause
  refine Options.valueClause_kept hkept ?_ (fun _ => htext) hclause
  exact fun _ _ hfield => Options.fieldClause_everywhere hconvert hpath hfield

end policy

/-! ### Texts of object ids -/

/-- Detectors that take literals for scalars only make a chain that does. -/
theorem detectFirst_scalar {literal : String} {chain : List (Kind × Detector)}
    (h : ∀ detector ∈ chain, ∃ found : Option Scalar,
      detector.2 literal = .ok (found.map Resolved.scalar)) :
    ∃ kind value, detectFirst literal chain = .ok (kind, .scalar value) := by
  induction chain with
  | nil => exact ⟨_, _, rfl⟩
  | cons detector chain ih =>
      obtain ⟨⟨found, hfound⟩, hmore⟩ := List.forall_mem_cons.mp h
      rw [detectFirst, hfound]
      cases found with
      | none => exact ih hmore
      | some value => exact ⟨_, _, rfl⟩

/-- A literal without the characters that mark the other kinds stands for a scalar. -/
theorem resolve_scalar_of_unmarked {text : String}
    (h : ∀ c ∈ ['[', '>', '<', '/', '*'], c ∉ text.toList) :
    ∃ value, resolve text = .ok (.scalar value) := by
  have hboolean : ∃ found : Option Scalar,
      Detector.boolean text = .ok (found.map Resolved.scalar) := by
    unfold Detector.boolean
    split_ifs
    · exact ⟨some (.boolean true), rfl⟩
    · exact ⟨some (.boolean false), rfl⟩
    · exact ⟨none, rfl⟩
  have hchain : ∀ detector ∈ [(Kind.date, Detector.date), (.number, Detector.number),
      (.boolean, Detector.boolean)], ∃ found : Option Scalar,
      detector.2 text = .ok (found.map Resolved.scalar) := by
    simp only [List.forall_mem_cons, List.not_mem_nil, false_implies, implies_true, and_true]
    exact ⟨⟨_, rfl⟩, ⟨_, rfl⟩, hboolean⟩
  obtain ⟨kind, value, hdetect⟩ := detectFirst_scalar hchain
  rw [resolve_of_unmarked h, hdetect]
  exact ⟨value, rfl⟩

section ids
variable {hex : String} (hhex : IsIdText hex)
include hhex

/-- A character that is no hexadecimal digit does not stand in the text of an id. -/
theorem IsIdText.not_mem {c : Char} (hc : isHexDigit c = false) : c ∉ hex.toList := by
  intro hmem
  rw [hhex.2 c hmem] at hc
  cases hc

theorem IsIdText.ofText? :
    ∃ id : ObjectId, id.hex = hex.toLower ∧ ObjectId.ofText? hex = some id := by
  have htext := isObjectIdText_toLower.mpr hhex
  refine ⟨⟨_, htext⟩, ?_, by rw [ObjectId.ofText?, dif_pos htext]⟩
  apply String.toList_injective
  simp [String.toLower]

/-- The text of an id stands for a number or a string, so it is converted. -/
theorem IsIdText.resolve_eq_scalar : ∃ value, resolve hex = .ok (.scalar value) := by
  apply resolve_scalar_of_unmarked
  simp only [List.forall_mem_cons, List.not_mem_nil, false_implies, implies_true, and_true]
  exact ⟨hhex.not_mem rfl, hhex.not_mem rfl, hhex.not_mem rfl, hhex.not_mem rfl, hhex.not_mem rfl⟩

theorem IsIdText.isWordStart : ∀ c ∈ hex.toList, isWordStart c = true := by
  intro c hc
  have hne : ∀ {d}, isHexDigit d = false → c ≠ d := by
    rintro d hd rfl
    exact hhex.not_mem hd hc
  have hblank : isBlank c = false := by
    have hdigit := isHexDigit_iff.mp (hhex.2 c hc)
    simp only [isBlank, inRanges, blankRanges, List.any_cons, List.any_nil, Bool.or_eq_false_iff,
      Bool.and_eq_false_iff, decide_eq_false_iff_not, and_true]
    omega
  simp only [QueryFilter.isWordStart, isWordChar, hblank, Bool.and_eq_true, Bool.not_eq_true',
    Bool.or_eq_false_iff, beq_eq_false_iff_ne, true_and, and_assoc]
  exact ⟨hne rfl, hne rfl, hne rfl, hne rfl, hne rfl, hne rfl, hne rfl, hne rfl⟩

/-- The text of an id is a word. -/
theorem IsIdText.isLexical : (Token.word hex).IsLexical := by
  have hne : ∀ {text : String}, text.toList.length ≠ 24 → hex ≠ text := by
    rintro text htext rfl
    exact htext hhex.1
  refine Token.isLexical_word (hne (by decide)) hhex.isWordStart ?_
  rw [Token.ofWord, if_neg (hne (by decide)), if_neg (hne (by decide)), if_neg (hne (by decide))]

end ids

/-- The three ways to write a text of hexadecimal digits as a value. -/
def Value.spellings (hex : String) : List Value :=
  [.words [hex], .quoted .double hex, .quoted .single hex]

section spellings
variable {hex : String} {value : Value} (hhex : IsIdText hex) (hvalue : value ∈ Value.spellings hex)
include hvalue

theorem Value.content_of_mem_spellings : value.content = hex := by
  simp only [Value.spellings, List.mem_cons, List.not_mem_nil, or_false] at hvalue
  rcases hvalue with rfl | rfl | rfl
  · rw [Value.content, String.intercalate_singleton]
  · rfl
  · rfl

include hhex

theorem Value.resolve_of_mem_spellings : ∃ value', value.resolve = .ok (.scalar value') := by
  simp only [Value.spellings, List.mem_cons, List.not_mem_nil, or_false] at hvalue
  rcases hvalue with rfl | rfl | rfl
  · rw [Value.resolve, Value.content, String.intercalate_singleton]
    · exact hhex.resolve_eq_scalar
    · simp
  · exact ⟨_, rfl⟩
  · exact ⟨_, rfl⟩

theorem Value.written_of_mem_spellings : Written value.text value.tokens := by
  have hquoted (quote : Quote) : (Token.quoted quote hex).IsLexical := by
    have hmark : isHexDigit quote.mark = false := by cases quote <;> rfl
    exact Token.isLexical_quoted (hhex.not_mem hmark)
  simp only [Value.spellings, List.mem_cons, List.not_mem_nil, or_false] at hvalue
  rcases hvalue with rfl | rfl | rfl
  · exact Value.written (by simp) (by simpa [Value.tokens] using hhex.isLexical)
  · exact Value.written (by simp) (by simpa [Value.tokens] using hquoted .double)
  · exact Value.written (by simp) (by simpa [Value.tokens] using hquoted .single)

/-- An identifier field with the text of an id is compared with the id. -/
theorem Query.compile_spelling {options : Options} {path : Path}
    (hid : (options.convertIdentifiers && path.isIdentifier) = true) {id : ObjectId}
    (hofText : ObjectId.ofText? hex = some id) :
    Query.compile options (Query.single (.field path value)) =
      .ok (entry (options.fieldName path) (.objectId id)) := by
  obtain ⟨scalar, hresolve⟩ := Value.resolve_of_mem_spellings hhex hvalue
  have hplain : (Resolved.scalar scalar).kind.isPlain = true := by
    cases scalar <;> rfl
  have hclause : options.fieldClause path value =
      .ok (entry (options.fieldName path) (.objectId id)) := by
    rw [Options.fieldClause, hresolve]
    dsimp only [Options.clauseOf]
    rw [if_pos hid, if_pos hplain, Value.content_of_mem_spellings hvalue, hofText]
  have hsplit : options.splitWords? value = none := by
    simp only [Value.spellings, List.mem_cons, List.not_mem_nil, or_false] at hvalue
    rcases hvalue with rfl | rfl | rfl <;> rfl
  have hoperand : (Operand.field path value).clause options =
      .ok (entry (options.fieldName path) (.objectId id)) := by
    rw [Operand.clause, Options.valueClause, hsplit, hclause]
    rfl
  rw [Query.single, Query.compile, Query.clauses, Branch.clauses, hoperand]
  rfl

omit hhex

theorem readLeaf_spelling {name : String} (hvalid : (Path.ofText name).isValid = true) :
    readLeaf (.word name :: .colon :: value.tokens) =
      .ok (.field (Path.ofText name) value, []) := by
  have hread : readValue name value.tokens = .ok (value, []) := by
    simp only [Value.spellings, List.mem_cons, List.not_mem_nil, or_false] at hvalue
    rcases hvalue with rfl | rfl | rfl <;> rfl
  exact readLeaf_field hvalid hread

end spellings

/-- The name of an identifier field ends with the letter with which `id` and `_id` end. -/
theorem Path.ends_of_isIdentifier {name : String} (h : (ofText name).isIdentifier = true) :
    ∃ before, name.toList = before ++ ['d'] := by
  have hlast : ∃ last, (ofText name).last? = some last ∧
      ∃ before, last.toList = before ++ ['d'] := by
    simp only [isIdentifier, Bool.or_eq_true, beq_iff_eq] at h
    rcases h with h | h
    · exact ⟨idKey, h, ['_', 'i'], rfl⟩
    · exact ⟨idAlias, h, ['i'], rfl⟩
  obtain ⟨last, hlast, before, hbefore⟩ := hlast
  obtain ⟨init, hinit⟩ := List.getLast?_eq_some_iff.mp hlast
  have hname : name = text ⟨init ++ [last]⟩ := by
    rw [← hinit]
    exact (text_ofText name).symm
  rcases text_concat init last with htext | ⟨front, htext⟩
  · exact ⟨before, by rw [hname, htext, hbefore]⟩
  · refine ⟨front.toList ++ '.' :: before, ?_⟩
    rw [hname, htext]
    simp [hbefore]

/-- A query text of an identifier field alone, with the text of an id as its value. -/
theorem parse_spelling {g : Grammar} {name hex : String} (hname : (Token.word name).IsLexical)
    (hvalid : (Path.ofText name).isValid = true) (hid : (Path.ofText name).isIdentifier = true)
    (hhex : IsIdText hex) {value : Value} (hvalue : value ∈ Value.spellings hex) :
    Query.parse g (name ++ ":" ++ value.text) =
      .ok (Query.single (.field (Path.ofText name) value)) := by
  -- The name may begin with a digit, but its last letter is in no date and in no time.
  obtain ⟨before, hbefore⟩ := Path.ends_of_isIdentifier hid
  have hscan := Token.scan_word_colon_of_last hname hbefore (by decide) (by decide)
  have hwritten := (Value.written_of_mem_spellings hhex hvalue).field_of_scan hscan
  have hleaf : Derives g 0 (.word name :: .colon :: value.tokens)
      (.operand (.field (Path.ofText name) value)) [] := .leaf (readLeaf_spelling hvalue hvalid)
  refine parse_eq_ok_iff.mpr ⟨_, hwritten.tokenize_eq, ?_⟩
  exact .single (.last hleaf (by simp) (by simp [operandFollows])) (by simp)

/-! ### From the query text -/

/-- **Identifiers are object ids.**  Where identifiers are converted, every filter compares the
identifier fields, at any depth, with object ids and with nothing else, and no field in it is called
`id` if they are renamed.  And every text of twenty-four hexadecimal digits is an object id,
whether it is quoted or not and also where it could be read as a number. -/
theorem Compiler.filter_identifiers {compiler : Compiler}
    (hconvert : compiler.options.convertIdentifiers = true) :
    (∀ text document,
      (∀ field ∈ compiler.options.defaultFields, (Path.ofText field).isIdentifier = false) →
      compiler.compile text = .ok document →
      document.Everywhere compiler.options.IsIdentifierEntry) ∧
    ∀ hex, IsIdText hex → ∃ id : ObjectId, id.hex = hex.toLower ∧
      ∀ value ∈ Value.spellings hex,
        (∀ path : Path, path.isIdentifier = true →
          Query.compile compiler.options (Query.single (.field path value)) =
            .ok (entry (compiler.options.fieldName path) (.objectId id))) ∧
        ∀ name, (Token.word name).IsLexical → (Path.ofText name).isValid = true →
          (Path.ofText name).isIdentifier = true →
          compiler.compile (name ++ ":" ++ value.text) =
            .ok (entry (compiler.options.fieldName (Path.ofText name)) (.objectId id)) := by
  constructor
  · intro text document hdefault h
    obtain ⟨query, hparse, hcompile⟩ := Compiler.compile_eq_ok_iff.mp h
    obtain ⟨tokens, -, hderives⟩ := parse_eq_ok_iff.mp hparse
    have hproper := hderives.properFor fun _ _ _ => readLeaf_path
    exact Query.compile_everywhere hconvert hdefault hproper hcompile
  · intro hex hhex
    obtain ⟨id, hlower, hofText⟩ := hhex.ofText?
    refine ⟨id, hlower, fun value hvalue => ?_⟩
    have hcompile {path : Path} (hid : path.isIdentifier = true) :
        Query.compile compiler.options (Query.single (.field path value)) =
          .ok (entry (compiler.options.fieldName path) (.objectId id)) :=
      Query.compile_spelling hhex hvalue (by rw [hconvert, hid, Bool.and_self]) hofText
    refine ⟨fun path => hcompile, fun name hname hvalid hid => ?_⟩
    exact Compiler.compile_eq_ok_iff.mpr
      ⟨_, parse_spelling hname hvalid hid hhex hvalue, hcompile hid⟩

/-- Two fields that have one name after the renaming, and a text that could be read as a number. -/
theorem Compiler.filter_identifiers_renamed :
    ∃ (compiler : Compiler) (document : Document) (first second id : ObjectId),
      document = entry Op.and (Datum.ofDocuments
        [entry "u._id" (.document (entry Op.ne (.objectId first))),
          entry "u._id" (.objectId second)]) ∧
      first.hex = "507f1f77bcf86cd799439011" ∧ second.hex = "123456789012345678901234" ∧
      compiler.options.convertIdentifiers = true ∧
      (∀ field ∈ compiler.options.defaultFields, (Path.ofText field).isIdentifier = false) ∧
      compiler.compile "NOT u.id:'507F1F77BCF86CD799439011' u._id:\"123456789012345678901234\"" =
        .ok document ∧
      document.Everywhere compiler.options.IsIdentifierEntry ∧
      IsIdText "123456789012E45678901234" ∧ id.hex = "123456789012E45678901234".toLower ∧
      compiler.compile ("u.id" ++ ":" ++ (Value.words ["123456789012E45678901234"]).text) =
        .ok (entry (compiler.options.fieldName (Path.ofText "u.id")) (.objectId id)) := by
  have hconvert : (⟨{}, ["title"], true, true, .phrase⟩ : Compiler).options.convertIdentifiers =
      true := rfl
  obtain ⟨heverywhere, hspelled⟩ := Compiler.filter_identifiers hconvert
  have hdefault : ∀ field ∈ ["title"], (Path.ofText field).isIdentifier = false := by decide
  have hhex : IsIdText "123456789012E45678901234" := ⟨rfl, List.all_eq_true.mp (by cbv)⟩
  have hname : (Token.word "u.id").IsLexical := ⟨"u.id".toList, [], by cbv⟩
  obtain ⟨id, hid, hvalues⟩ := hspelled _ hhex
  obtain ⟨-, hwritten⟩ := hvalues (.words ["123456789012E45678901234"]) List.mem_cons_self
  have hword := hwritten "u.id" hname (by decide) (by decide)
  have hparse : Query.parse {}
      "NOT u.id:'507F1F77BCF86CD799439011' u._id:\"123456789012345678901234\"" =
      .ok [[.not (.field ⟨["u", "id"]⟩ (.quoted .single "507F1F77BCF86CD799439011")),
        .field ⟨["u", "_id"]⟩ (.quoted .double "123456789012345678901234")]] := by
    refine parse_eq_ok_iff.mpr ⟨[.not, .word "u.id", .colon,
      .quoted .single "507F1F77BCF86CD799439011", .word "u._id", .colon,
      .quoted .double "123456789012345678901234"], by cbv, ?_⟩
    exact .single (.next (.not rfl (by decide) (.leaf rfl)) rfl rfl
      (.last (.leaf rfl) (by simp) (by simp [operandFollows]))) (by simp)
  refine ⟨_, _, ⟨"507f1f77bcf86cd799439011", by decide⟩, ⟨"123456789012345678901234", by decide⟩,
    id, rfl, rfl, rfl, hconvert, hdefault, ?_⟩
  exact (fun h => ⟨h, heverywhere _ _ hdefault h, hhex, hid, hword⟩ : _ → _ ∧ _)
    (by rw [Compiler.compile, hparse]; rfl)

end QueryFilter
