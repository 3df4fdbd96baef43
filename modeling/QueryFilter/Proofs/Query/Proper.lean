import QueryFilter.Query

/-! # Proper queries

A query is proper when none of the lists in it is empty and each of its leaves is as it should be.
What is asked of the leaves is a parameter: `p` of the values wanted in fields, `q` of free
texts. -/

namespace QueryFilter

/-- No list in the operand is empty, and its leaves satisfy `p` and `q`. -/
inductive Operand.Proper (p : Path → Value → Prop) (q : FreeText → Prop) : Operand → Prop
  | field {path : Path} {value : Value} (h : p path value) : Proper p q (.field path value)
  | text {text : FreeText} (h : q text) : Proper p q (.text text)
  | not {operand : Operand} (h : Proper p q operand) : Proper p q (.not operand)
  | group {branches : List (List Operand)} (some_branch : branches ≠ [])
      (some_operand : ∀ branch ∈ branches, branch ≠ [])
      (h : ∀ branch ∈ branches, ∀ operand ∈ branch, Proper p q operand) :
      Proper p q (.group branches)

/-- The branch has an operand, and its operands are proper. -/
def Branch.Proper (p : Path → Value → Prop) (q : FreeText → Prop) (branch : Branch) : Prop :=
  branch ≠ [] ∧ ∀ operand ∈ branch, operand.Proper p q

/-- The query has a branch, and its branches are proper. -/
def Query.Proper (p : Path → Value → Prop) (q : FreeText → Prop) (query : Query) : Prop :=
  query ≠ [] ∧ ∀ branch ∈ query, Branch.Proper p q branch

variable {p p' : Path → Value → Prop} {q q' : FreeText → Prop}

theorem Operand.proper_group_iff {branches : List (List Operand)} :
    (Operand.group branches).Proper p q ↔ Query.Proper p q branches := by
  constructor
  · intro h
    cases h with
    | group some_branch some_operand h =>
        exact ⟨some_branch, fun branch hb => ⟨some_operand branch hb, h branch hb⟩⟩
  · rintro ⟨some_branch, h⟩
    exact .group some_branch (fun branch hb => (h branch hb).1) fun branch hb => (h branch hb).2

theorem Operand.Proper.mono (hp : ∀ path value, p path value → p' path value)
    (hq : ∀ text, q text → q' text) {operand : Operand} (h : operand.Proper p q) :
    operand.Proper p' q' := by
  induction h with
  | field h => exact .field (hp _ _ h)
  | text h => exact .text (hq _ h)
  | not _ ih => exact .not ih
  | group some_branch some_operand _ ih => exact .group some_branch some_operand ih

theorem Query.Proper.mono (hp : ∀ path value, p path value → p' path value)
    (hq : ∀ text, q text → q' text) {query : Query} (h : query.Proper p q) :
    query.Proper p' q' :=
  ⟨h.1, fun branch hb => ⟨(h.2 branch hb).1, fun operand ho =>
    ((h.2 branch hb).2 operand ho).mono hp hq⟩⟩

/-! ### Results and errors -/

theorem map_eq_ok_iff {ε α β : Type} {r : Except ε α} {f : α → β} {b : β} :
    r.map f = .ok b ↔ ∃ a, r = .ok a ∧ f a = b := by
  cases r with
  | error e => simp [Except.map]
  | ok a => simp [Except.map]

theorem map_eq_error_iff {ε α β : Type} {r : Except ε α} {f : α → β} {e : ε} :
    r.map f = .error e ↔ r = .error e := by
  cases r with
  | error e => simp [Except.map]
  | ok a => simp [Except.map]

end QueryFilter
