import QueryFilter.Proofs.Filter.Conjunction
import QueryFilter.Proofs.Filter.Output

/-! # Parentheses around one operand

An operand in parentheses of its own has the clause that it has without them
(`Operand.clause_group_single`).  Filters are built from the clauses of operands, so such
parentheses can be put around an operand at any depth of a query, and its filter stays the same:
this is `Query.compile_parenthesized`.

One kind of operand is left out.  A `NOT` before a field does not reach the words that are split off
its value, a `NOT` before parentheses does.

`Operand.Place` is a place for an operand at any depth of another.  Operands with the same clause
can stand in for each other there (`Operand.Place.clause_fill`). -/

namespace QueryFilter

open Document

/-! ### Clauses of groups -/

section groups
variable {options : Options}

/-- Parentheses around one operand. -/
theorem Operand.clause_group_single (operand : Operand) :
    (Operand.group [[operand]]).clause options = operand.clause options := by
  rw [Operand.clause_group_branch, Branch.clauses, Branch.clauses]
  cases operand.clause options with
  | error e => rfl
  | ok clause => exact congrArg Except.ok (conjunction_singleton clause)

/-- A query of one operand has its clause for a filter. -/
theorem Query.compile_single (operand : Operand) :
    Query.compile options [[operand]] = operand.clause options := by
  rw [Query.compile_eq, Operand.clause_group_single]

end groups

/-! ### Values that are split -/

/-- The value has several words, of which only the first belongs to the field. -/
def Options.Splits (options : Options) (value : Value) : Prop :=
  options.multiWordValues = .splitFreeText ∧ ∃ words, value = .words words ∧ 2 ≤ words.length

section split
variable {options : Options} {path : Path} {value : Value}

theorem Options.splitWords?_eq_none_iff :
    options.splitWords? value = none ↔ ¬options.Splits value := by
  unfold Options.splitWords? Options.Splits
  split
  · simp
  · next hshort =>
    simp only [true_iff, not_and, not_exists]
    rintro - words rfl
    match words with
    | [] => simp
    | [word] => simp
    | first :: second :: rest => exact absurd rfl (hshort first second rest)

/-- A field whose value is not split is negated by negating its clause. -/
theorem Options.valueClause_true (h : ¬options.Splits value) :
    options.valueClause true path value = (options.valueClause false path value).map negate := by
  rw [Options.valueClause, Options.valueClause, Options.splitWords?_eq_none_iff.mpr h]
  cases options.fieldClause path value with
  | error e => rfl
  | ok clause => rfl

/-- A `NOT` negates the clause of its operand, unless this is a field whose value is split. -/
theorem Operand.clause_not_of_not_splits {operand : Operand}
    (h : ∀ path value, operand = .field path value → ¬options.Splits value) :
    (Operand.not operand).clause options = (operand.clause options).map negate := by
  by_cases hfield : ∃ path value, operand = .field path value
  · obtain ⟨path, value, rfl⟩ := hfield
    rw [Operand.clause, Operand.clause, Options.valueClause_true (h path value rfl)]
  · exact Operand.clause_not fun path value heq => hfield ⟨path, value, heq⟩

end split

/-! ### Places -/

/-- A place for an operand in an operand: the whole of it, a place behind its `NOT`, or a place
between the operands and branches in its parentheses. -/
inductive Operand.Place where
  | whole
  | not (inner : Place)
  | group (before : List (List Operand)) (left : List Operand) (inner : Place)
      (right : List Operand) (after : List (List Operand))

namespace Operand.Place

/-- The operand with another one at the place. -/
def fill (operand : Operand) : Place → Operand
  | whole => operand
  | not inner => .not (inner.fill operand)
  | group before left inner right after =>
    .group (before ++ (left ++ inner.fill operand :: right) :: after)

/-- The place is directly behind a `NOT`. -/
def isNegated : Place → Bool
  | whole => false
  | not whole => true
  | not inner => inner.isNegated
  | group _ _ inner _ _ => inner.isNegated

variable {options : Options} {operand other : Operand}

/-- Operands with the same clause can stand in for each other between other operands. -/
theorem clauses_replace (h : operand.clause options = other.clause options) (before after : Query)
    (left right : Branch) :
    Query.clauses options (before ++ (left ++ operand :: right) :: after) =
      Query.clauses options (before ++ (left ++ other :: right) :: after) := by
  have hbranch : Branch.clauses options (left ++ operand :: right) =
      Branch.clauses options (left ++ other :: right) :=
    Branch.clauses_congr
      (List.rel_append (List.forall₂_refl left) (.cons h (List.forall₂_refl right)))
  exact Query.clauses_congr
    (List.rel_append (List.forall₂_refl before) (.cons hbranch (List.forall₂_refl after)))

theorem isNegated_not {inner : Place} (h : inner ≠ whole) :
    (not inner).isNegated = inner.isNegated := by
  cases inner with
  | whole => exact absurd rfl h
  | not inner => rfl
  | group before left inner right after => rfl

theorem fill_ne_field {place : Place} (h : place ≠ whole) (path : Path) (value : Value) :
    place.fill operand ≠ .field path value := by
  cases place with
  | whole => exact absurd rfl h
  | not inner => simp [fill]
  | group before left inner right after => simp [fill]

/-- Operands with the same clause can stand in for each other at any place.  Behind a `NOT` their
negations must have the same clause too, since fields are negated in their own way. -/
theorem clause_fill (place : Place) (h : operand.clause options = other.clause options)
    (hnot : place.isNegated = true →
      (Operand.not operand).clause options = (Operand.not other).clause options) :
    (place.fill operand).clause options = (place.fill other).clause options := by
  induction place with
  | whole => exact h
  | not inner ih =>
      by_cases hwhole : inner = whole
      · subst hwhole
        exact hnot rfl
      · rw [isNegated_not hwhole] at hnot
        rw [fill, fill, Operand.clause_not (fill_ne_field hwhole),
          Operand.clause_not (fill_ne_field hwhole), ih hnot]
  | group before left inner right after ih =>
      rw [fill, fill, Operand.clause, Operand.clause, clauses_replace (ih hnot)]

end Operand.Place

/-! ### Queries -/

/-- **Parentheses around one operand change nothing**, wherever the operand stands in the query,
except for a field directly behind a `NOT` whose value is split. -/
theorem Query.compile_parenthesized {options : Options} (before after : Query)
    (left right : Branch) (place : Operand.Place) (operand : Operand)
    (h : ¬(place.isNegated = true ∧
      ∃ path value, operand = .field path value ∧ options.Splits value)) :
    Query.compile options (before ++ (left ++ place.fill (.group [[operand]]) :: right) :: after) =
      Query.compile options (before ++ (left ++ place.fill operand :: right) :: after) := by
  have hfill : (place.fill (.group [[operand]])).clause options =
      (place.fill operand).clause options := by
    refine place.clause_fill (Operand.clause_group_single operand) fun hnegated => ?_
    have hsplit : ∀ path value, operand = .field path value → ¬options.Splits value :=
      fun path value heq hsplits => h ⟨hnegated, path, value, heq, hsplits⟩
    rw [Operand.clause_not (by simp), Operand.clause_group_single,
      Operand.clause_not_of_not_splits hsplit]
  rw [Query.compile, Query.compile, Operand.Place.clauses_replace hfill]

/-- A field whose value is split, not directly behind the `NOT` that it is inside of. -/
theorem Query.compile_parenthesized_split :
    ∃ (options : Options) (place : Operand.Place) (operand : Operand) (document : Document),
      options = { multiWordValues := .splitFreeText } ∧
      place = .not (.group [] [.not (.field ⟨["a"]⟩ (.words ["true"]))] .whole [] []) ∧
      operand = .field ⟨["name"]⟩ (.words ["John", "Smith"]) ∧
      document = entry Op.and (Datum.ofDocuments [textSearch "b",
        entry Op.or (Datum.ofDocuments [entry "a" (.bool true),
          entry Op.or (Datum.ofDocuments
            [entry "name" (.document (entry Op.ne (.string "John"))), textSearch "-Smith"])])]) ∧
      options.Splits (.words ["John", "Smith"]) ∧ place.isNegated = false ∧
      Query.compile options [[.text (.words ["b"]), place.fill operand]] = .ok document ∧
      Query.compile options [[.text (.words ["b"]), place.fill (.group [[operand]])]] =
        .ok document := by
  refine ⟨_, _, _, _, rfl, rfl, rfl, rfl, ⟨rfl, _, rfl, by simp⟩, rfl, ?_⟩
  have hplain : Query.compile { multiWordValues := .splitFreeText }
      [[.text (.words ["b"]), .not (.group [[.not (.field ⟨["a"]⟩ (.words ["true"])),
        .field ⟨["name"]⟩ (.words ["John", "Smith"])]])]] = .ok (entry Op.and (Datum.ofDocuments
          [textSearch "b", entry Op.or (Datum.ofDocuments [entry "a" (.bool true),
            entry Op.or (Datum.ofDocuments [entry "name" (.document (entry Op.ne (.string "John"))),
              textSearch "-Smith"])])])) := by
    cbv
  refine ⟨hplain, ?_⟩
  exact (Query.compile_parenthesized [] [] [.text (.words ["b"])] [] _ _
    (fun h => Bool.noConfusion h.1)).trans hplain

/-- Directly behind the `NOT`, the parentheses let it reach the word that is split off. -/
example :
    (Query.compile { multiWordValues := .splitFreeText }
        [[.not (.field ⟨["name"]⟩ (.words ["John", "Smith"]))]]).map Document.keys = .ok [Op.and] ∧
      (Query.compile { multiWordValues := .splitFreeText }
        [[.not (.group [[.field ⟨["name"]⟩ (.words ["John", "Smith"])]])]]).map Document.keys =
          .ok [Op.or] := by
  exact ⟨rfl, rfl⟩

end QueryFilter
