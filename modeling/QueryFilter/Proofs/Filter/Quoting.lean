import QueryFilter.Proofs.Filter.Grouping
import QueryFilter.Proofs.Token.FieldName

/-! # Quoted values

What stands between quotes is the value of the field, character by character: a phrase is cut off
the text at the next mark of its own kind, and it is not resolved.  So a name, a colon and a phrase
are compiled to one entry with the text of the phrase, and after `NOT` to its negation
(`Compiler.filter_quoted`). -/

namespace QueryFilter

open Document

section quoted
variable {name text : String} {quote : Quote} {leading before after trailing : String}

/-! ### The tokens -/

theorem scan_around (htext : quote.mark ∉ text.toList)
    (htrailing : ∀ c ∈ trailing.toList, isBlank c = true) :
    Token.scan ((quote.around text).toList ++ trailing.toList) = .ok [.quoted quote text] := by
  have hblanks := Token.scan_blanks htrailing []
  rw [List.append_nil, Token.scan_nil] at hblanks
  have hread : Token.read? ((quote.around text).toList ++ trailing.toList) =
      some (.quoted quote text, trailing.toList) := Token.read?_quoted htext _
  have hstart : trimStart ((quote.around text).toList ++ trailing.toList) =
      (quote.around text).toList ++ trailing.toList :=
    (Token.isLexical_quoted htext).trimStart_append _
  rw [Token.scan_of_read? (hstart ▸ hread), hblanks]
  rfl

/-- A name, a colon and a phrase are three tokens, with any blanks around them. -/
theorem scan_quoted (hname : IsFieldName name) (htext : quote.mark ∉ text.toList)
    (hblanks : ∀ blanks ∈ [leading, before, after, trailing],
      ∀ c ∈ blanks.toList, isBlank c = true) :
    Token.scan
        (leading ++ name ++ before ++ ":" ++ after ++ quote.around text ++ trailing).toList =
      .ok [.word name, .colon, .quoted quote text] := by
  have hchars : (leading ++ name ++ before ++ ":" ++ after ++ quote.around text ++ trailing).toList =
      leading.toList ++ (name.toList ++ (before.toList ++ ':' :: (after.toList ++
        ((quote.around text).toList ++ trailing.toList)))) := by
    simp
  simp only [List.forall_mem_cons] at hblanks
  obtain ⟨hleading, hbefore, hafter, htrailing, -⟩ := hblanks
  rw [hchars, Token.scan_blanks hleading, hname.scan hbefore hafter, scan_around htext htrailing]
  rfl

/-! ### The query -/

variable {g : Grammar} {depth : Nat}

theorem Derives.single_operand {tokens : List Token} {operand : Operand}
    (h : Derives g depth tokens (.operand operand) []) :
    Derives g depth tokens (.query (Query.single operand)) [] :=
  .single (.last h (by simp) (by simp [operandFollows])) (by simp)

/-! ### The clause -/

variable {options : Options} {path : Path}

/-- A phrase is not resolved. -/
theorem Options.fieldClause_quoted (hconvert : options.convertIdentifiers = false) :
    options.fieldClause path (.quoted quote text) =
      .ok (entry (options.fieldName path) (.string text)) := by
  rw [fieldClause, Value.resolve]
  dsimp only [clauseOf]
  rw [hconvert, Bool.false_and, if_neg Bool.false_ne_true]
  rfl

theorem Operand.clause_quoted (hconvert : options.convertIdentifiers = false) :
    (Operand.field path (.quoted quote text)).clause options =
      .ok (entry (options.fieldName path) (.string text)) := by
  rw [Operand.clause, Options.valueClause]
  dsimp only [Options.splitWords?]
  rw [Options.fieldClause_quoted hconvert]
  rfl

theorem Operand.clause_not_quoted (hconvert : options.convertIdentifiers = false)
    (hname : isOperatorName (options.fieldName path) = false) :
    (Operand.not (.field path (.quoted quote text))).clause options =
      .ok (entry (options.fieldName path) (.document (entry Op.ne (.string text)))) := by
  have hnegate : negate (entry (options.fieldName path) (.string text)) =
      entry (options.fieldName path) (.document (entry Op.ne (.string text))) :=
    negateEntry_field hname (.plain (.string text))
  rw [Operand.clause, Options.valueClause]
  dsimp only [Options.splitWords?]
  rw [Options.fieldClause_quoted hconvert]
  exact congrArg Except.ok hnegate

end quoted

/-- **Quoted values are exact.**  Where identifiers are not converted, the filter of a name, a colon
and a quoted text, with any blanks around them, is the entry of the field with the very text, and
after `NOT` it is the negation of that entry. -/
theorem Compiler.filter_quoted {compiler : Compiler}
    (hconvert : compiler.options.convertIdentifiers = false) {name : String}
    (hname : IsFieldName name)
    (hpath : ∀ segment ∈ (Path.ofText name).segments,
      segment ≠ "" ∧ isOperatorName segment = false)
    {quote : Quote} {text : String} (htext : quote.mark ∉ text.toList)
    {leading before after trailing : String}
    (hblanks : ∀ blanks ∈ [leading, before, after, trailing],
      ∀ c ∈ blanks.toList, isBlank c = true) :
    let source := leading ++ name ++ before ++ ":" ++ after ++ quote.around text ++ trailing
    let key := compiler.options.fieldName (Path.ofText name)
    compiler.compile source = .ok (entry key (.string text)) ∧
    (1 ≤ compiler.grammar.maxDepth →
      compiler.compile ("NOT " ++ source) =
        .ok (entry key (.document (entry Op.ne (.string text))))) := by
  intro source key
  have hscan := scan_quoted hname htext hblanks
  have hvalid : (Path.ofText name).isValid = true := by
    rw [Path.isValid, List.all_eq_true]
    exact fun segment hsegment => by simp [hpath segment hsegment]
  have hproper : IsProperField (Path.ofText name) (.quoted quote text) :=
    ⟨Path.segments_ofText_ne_nil name, hpath, by simp⟩
  have hleaf {depth : Nat} : Derives compiler.grammar depth [.word name, .colon, .quoted quote text]
      (.operand (.field (Path.ofText name) (.quoted quote text))) [] :=
    .leaf (readLeaf_field hvalid rfl)
  constructor
  · refine Compiler.compile_eq_ok_iff.mpr ⟨_, parse_eq_ok_iff.mpr
      ⟨_, hscan, hleaf.single_operand⟩, ?_⟩
    rw [Query.single, Query.compile_single, Operand.clause_quoted hconvert]
  · intro hdepth
    have hnot : tokenize ("NOT " ++ source) =
        .ok [.not, .word name, .colon, .quoted quote text] := by
      have hchars : ("NOT " ++ source).toList = Token.not.text.toList ++ ' ' :: source.toList := by
        simp [Token.text]
      rw [tokenize, hchars, Token.scan_operator_space (by simp), hscan]
      rfl
    refine Compiler.compile_eq_ok_iff.mpr ⟨_, parse_eq_ok_iff.mpr
      ⟨_, hnot, (Derives.not rfl hdepth hleaf).single_operand⟩, ?_⟩
    rw [Query.single, Query.compile_single, Operand.clause_not_quoted hconvert
      (compiler.options.isOperatorName_fieldName hproper)]

/-- Operators, brackets, a pattern and the other quote between the quotes. -/
theorem Compiler.filter_quoted_starred :
    ∃ compiler : Compiler, compiler.options.convertIdentifiers = false ∧ IsFieldName "user.id" ∧
      (∀ segment ∈ (Path.ofText "user.id").segments,
        segment ≠ "" ∧ isOperatorName segment = false) ∧
      Quote.double.mark ∉ "NOT [a* TO 'b']:/(\t>=1 OR".toList ∧
      compiler.compile " user.id\t:\u00a0\"NOT [a* TO 'b']:/(\t>=1 OR\"\n" =
        .ok (entry "user._id" (.string "NOT [a* TO 'b']:/(\t>=1 OR")) ∧
      1 ≤ compiler.grammar.maxDepth ∧
      compiler.compile "NOT  user.id\t:\u00a0\"NOT [a* TO 'b']:/(\t>=1 OR\"\n" =
        .ok (entry "user._id"
          (.document (entry "$ne" (.string "NOT [a* TO 'b']:/(\t>=1 OR")))) := by
  have hname : IsFieldName "user.id" :=
    ⟨⟨'u', rfl, by decide, by decide, by decide, by decide⟩, List.all_eq_true.mp (by cbv), by decide⟩
  have hpath : ∀ segment ∈ (Path.ofText "user.id").segments,
      segment ≠ "" ∧ isOperatorName segment = false := by decide
  have htext : Quote.double.mark ∉ "NOT [a* TO 'b']:/(\t>=1 OR".toList := by decide
  have hall : [" ", "\t", "\u00a0", "\n"].all (fun blanks => blanks.toList.all isBlank) = true := by
    cbv
  have hblanks : ∀ blanks ∈ [" ", "\t", "\u00a0", "\n"], ∀ c ∈ blanks.toList, isBlank c = true :=
    fun blanks h => List.all_eq_true.mp (List.all_eq_true.mp hall blanks h)
  have hconvert : (⟨⟨true, 1⟩, ⟨[], true, false, .phrase⟩⟩ : Compiler).options.convertIdentifiers =
      false := rfl
  obtain ⟨hplain, hnegated⟩ := Compiler.filter_quoted hconvert hname hpath htext hblanks
  exact ⟨_, hconvert, hname, hpath, htext, hplain, Nat.le_refl 1, hnegated (Nat.le_refl 1)⟩

end QueryFilter
