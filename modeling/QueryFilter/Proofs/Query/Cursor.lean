import Mathlib
import QueryFilter.Query.Cursor

/-! # The cursor moves on

The walk over the tokens is the parser (`Walk.follows`): at a cursor in front of a token it reads
what the parser reads off the tokens from there on, and it ends with the cursor behind what was read
and as deep as before.  Since the parser takes at least one token for each part, so does the walk
(`Walk.progress`).

`Walk.Reads` relates a walk to a result of the parser.  It is shown for words, values and leaves one
by one, and for operands, branches and queries together, by induction on the number of calls
(`Walk.Follows`).  Four calls for each token that is left, and a few more, are enough. -/

namespace QueryFilter

variable {g : Grammar} {tokens rest : List Token} {token : Token} {c : Cursor}

/-! ### Places -/

/-- The cursor has the rest of the tokens in front of it. -/
structure Cursor.At (tokens : List Token) (c : Cursor) (rest : List Token) : Prop where
  position_le : c.position ≤ tokens.length
  drop_eq : tokens.drop c.position = rest

/-- The cursor was moved on among the tokens, and it is as deep as before. -/
structure Cursor.Advances (tokens : List Token) (c c' : Cursor) : Prop where
  position_lt : c.position < c'.position
  position_le : c'.position ≤ tokens.length
  depth_eq : c'.depth = c.depth

namespace Cursor

/-- The cursor one token further on. -/
def step (c : Cursor) : Cursor := { c with position := c.position + 1 }

theorem at_drop (h : c.position ≤ tokens.length) : c.At tokens (tokens.drop c.position) :=
  ⟨h, rfl⟩

namespace At

theorem next (h : c.At tokens (token :: rest)) : c.step.At tokens rest where
  position_le := by
    have hlength := congrArg List.length h.drop_eq
    rw [List.length_drop, List.length_cons] at hlength
    change c.position + 1 ≤ tokens.length
    omega
  drop_eq := by
    change tokens.drop (c.position + 1) = rest
    rw [← List.drop_drop, h.drop_eq]
    rfl

/-- The place does not depend on the depth. -/
theorem deep (h : c.At tokens rest) (depth : Nat) : At tokens { c with depth } rest :=
  ⟨h.position_le, h.drop_eq⟩

theorem getElem? (h : c.At tokens rest) (offset : Nat) :
    tokens[c.position + offset]? = rest[offset]? := by
  rw [← h.drop_eq, List.getElem?_drop]

end At

end Cursor

/-! ### Outcomes -/

namespace Walk

section outcomes
variable {α β : Type} {walk : Walk α} {next : α → Walk β} {value : α} {c' : Cursor} {halt : Halt}

theorem outcome_refuse (error : SyntaxError) :
    (refuse error : Walk α).outcome c = some (.error (.refused error)) := rfl

theorem outcome_bind_ok (h : walk.outcome c = some (.ok (value, c'))) :
    (walk >>= next).outcome c = (next value).outcome c' := by
  rw [outcome] at h
  rw [outcome, StateT.run_bind, ExceptT.run_bind, h]
  rfl

theorem outcome_bind_error (h : walk.outcome c = some (.error halt)) :
    (walk >>= next).outcome c = some (.error halt) := by
  rw [outcome] at h
  rw [outcome, StateT.run_bind, ExceptT.run_bind, h]
  rfl

theorem outcome_bind_none (h : walk.outcome c = none) : (walk >>= next).outcome c = none := by
  rw [outcome] at h
  rw [outcome, StateT.run_bind, ExceptT.run_bind, h]
  rfl

end outcomes

theorem outcome_get (c : Cursor) : (get : Walk Cursor).outcome c = some (.ok (c, c)) := rfl

theorem outcome_peekAt (h : c.At tokens rest) (offset : Nat) :
    (peekAt tokens offset).outcome c = some (.ok (rest[offset]?, c)) := by
  rw [← h.getElem?]
  rfl

theorem outcome_peek (h : c.At tokens rest) :
    (peek tokens).outcome c = some (.ok (rest.head?, c)) := by
  rw [List.head?_eq_getElem?]
  exact outcome_peekAt h 0

theorem outcome_advance (h : c.At tokens (token :: rest)) :
    (advance tokens).outcome c = some (.ok (some token, c.step)) := by
  rw [advance, outcome_bind_ok (outcome_peek h)]
  rfl

theorem outcome_advance_end (h : c.At tokens []) :
    (advance tokens).outcome c = some (.ok (none, c)) := by
  rw [advance, outcome_bind_ok (outcome_peek h)]
  rfl

theorem outcome_peek_end (h : tokens.length ≤ c.position) :
    (peek tokens).outcome c = some (.ok (none, c)) := by
  rw [← List.getElem?_eq_none h]
  rfl

/-- After an operator the parser looks whether an operand can follow. -/
theorem outcome_operator (h : c.At tokens (token :: rest)) :
    (operator tokens token).outcome c =
      if operandFollows rest then some (.ok ((), c.step))
      else some (.error (.refused (.danglingOperator token.text))) := by
  rw [operator, outcome_bind_ok (outcome_advance h), outcome_bind_ok (outcome_peek h.next)]
  cases rest with
  | nil => rfl
  | cons follower rest => cases follower <;> rfl

theorem outcome_enter (g : Grammar) (position depth : Nat) :
    (enter g).outcome ⟨position, depth⟩ =
      if depth < g.maxDepth then some (.ok ((), ⟨position, depth + 1⟩))
      else some (.error (.refused (.tooDeep g.maxDepth))) := by
  have hmodify : (modify fun c => { c with depth := c.depth + 1 } : Walk PUnit).outcome
      ⟨position, depth⟩ = some (.ok ((), ⟨position, depth + 1⟩)) := rfl
  rw [enter, outcome_bind_ok hmodify, outcome_bind_ok (outcome_get _)]
  dsimp only
  by_cases h : depth < g.maxDepth
  · rw [if_pos h, if_neg (by omega)]
    rfl
  · rw [if_neg h, if_pos (by omega)]
    rfl

theorem outcome_leave (position depth : Nat) :
    leave.outcome ⟨position, depth + 1⟩ = some (.ok ((), ⟨position, depth⟩)) := rfl

/-! ### Reading -/

/-- The walk comes to the same as the parser: to its error, or to its value with the cursor behind
what was read and `depth` deep.  It may have no outcome unless there are `enough` calls. -/
inductive Reads {α : Type} (tokens : List Token) (walk : Walk α) (c : Cursor) (depth : Nat)
    (enough : Prop) : Except SyntaxError (α × List Token) → Prop
  | unfinished {result : Except SyntaxError (α × List Token)} (hfew : ¬enough)
      (h : walk.outcome c = none) : Reads tokens walk c depth enough result
  | refused {error : SyntaxError} (h : walk.outcome c = some (.error (.refused error))) :
      Reads tokens walk c depth enough (.error error)
  | read {value : α} {rest : List Token} {position : Nat}
      (hat : Cursor.At tokens ⟨position, depth⟩ rest)
      (h : walk.outcome c = some (.ok (value, ⟨position, depth⟩))) :
      Reads tokens walk c depth enough (.ok (value, rest))

namespace Reads

variable {α β : Type} {walk : Walk α} {next : α → Walk β} {depth inner : Nat} {enough more : Prop}
  {result : Except SyntaxError (α × List Token)}

theorem pure (h : c.At tokens rest) (value : α) :
    Reads tokens (Pure.pure value : Walk α) c c.depth enough (.ok (value, rest)) := .read h rfl

/-- Steps that were taken do not count. -/
theorem of_outcome {walk' : Walk α} {c' : Cursor} (heq : walk.outcome c = walk'.outcome c')
    (h : Reads tokens walk' c' depth enough result) : Reads tokens walk c depth enough result := by
  cases h with
  | unfinished hfew h => exact .unfinished hfew (heq.trans h)
  | refused h => exact .refused (heq.trans h)
  | read hat h => exact .read hat (heq.trans h)

theorem mono (h : Reads tokens walk c depth enough result) (hmore : more → enough) :
    Reads tokens walk c depth more result := by
  cases h with
  | unfinished hfew h => exact .unfinished (mt hmore hfew) h
  | refused h => exact .refused h
  | read hat h => exact .read hat h

/-- A walk that goes on where another one ended. -/
theorem bind {onward : α × List Token → Except SyntaxError (β × List Token)}
    (h : Reads tokens walk c inner enough result)
    (hnext : ∀ value rest position, result = .ok (value, rest) →
      Cursor.At tokens ⟨position, inner⟩ rest →
      Reads tokens (next value) ⟨position, inner⟩ depth enough (onward (value, rest))) :
    Reads tokens (walk >>= next) c depth enough (result.bind onward) := by
  cases h with
  | unfinished hfew h => exact .unfinished hfew (outcome_bind_none h)
  | refused h => exact .refused (outcome_bind_error h)
  | read hat h => exact of_outcome (outcome_bind_ok h) (hnext _ _ _ rfl hat)

/-- A walk that takes no more tokens where another one ended. -/
theorem map {f : α → β} (h : Reads tokens walk c inner enough result)
    (hnext : ∀ value position,
      (next value).outcome ⟨position, inner⟩ = some (.ok (f value, ⟨position, depth⟩))) :
    Reads tokens (walk >>= next) c depth enough
      (result.map fun (value, rest) => (f value, rest)) := by
  cases h with
  | unfinished hfew h => exact .unfinished hfew (outcome_bind_none h)
  | refused h => exact .refused (outcome_bind_error h)
  | read hat h => exact .read (hat.deep depth) ((outcome_bind_ok h).trans (hnext _ _))

/-- Where the walk has a value, the parser has it too. -/
theorem of_ok {value : α} {c' : Cursor} (h : Reads tokens walk c depth enough result)
    (hok : walk.outcome c = some (.ok (value, c'))) :
    ∃ rest, result = .ok (value, rest) ∧ c'.depth = depth ∧ c'.At tokens rest := by
  cases h with
  | unfinished hfew h =>
      rw [hok] at h
      cases h
  | refused h =>
      rw [hok] at h
      cases h
  | read hat h =>
      rw [hok] at h
      cases h
      exact ⟨_, rfl, rfl, hat⟩

end Reads

/-! ### Leaves -/

section leaves
variable {calls : Nat}

/-- The token after the one under the cursor. -/
theorem outcome_peekAt_one (h : c.At tokens (token :: rest)) :
    (peekAt tokens 1).outcome c = some (.ok (rest.head?, c)) := by
  rw [List.head?_eq_getElem?]
  exact outcome_peekAt h 1

theorem reads_words (word? : Token → Option String) (calls : Nat) (sofar : List String)
    (h : c.At tokens rest) :
    Reads tokens (words tokens word? calls sofar) c c.depth (rest.length < calls)
      (.ok (sofar ++ (wordRun word? rest).1, (wordRun word? rest).2)) := by
  induction calls generalizing c rest sofar with
  | zero => exact .unfinished (Nat.not_lt_zero _) rfl
  | succ calls ih =>
      have hnone : Reads tokens (pure sofar : Walk (List String)) c c.depth
          (rest.length < calls + 1) (.ok (sofar ++ [], rest)) := by
        rw [List.append_nil]
        exact .pure h sofar
      rw [words]
      refine .of_outcome (outcome_bind_ok (outcome_peek h)) ?_
      cases rest with
      | nil => exact hnone
      | cons token rest =>
          dsimp only [List.head?_cons]
          rw [wordRun]
          cases word? token with
          | none => exact hnone
          | some word =>
              refine .of_outcome (outcome_bind_ok (outcome_peekAt_one h)) ?_
              dsimp only
              split
              · exact hnone
              · have hrest := ih (sofar ++ [word]) h.next
                rw [List.append_assoc] at hrest
                refine .of_outcome (outcome_bind_ok (outcome_advance h)) ?_
                exact hrest.mono Nat.lt_of_succ_lt_succ

theorem reads_fieldValue (calls : Nat) (field : String) (h : c.At tokens rest) :
    Reads tokens (fieldValue tokens calls field) c c.depth (rest.length ≤ calls)
      (readValue field rest) := by
  rw [fieldValue]
  refine .of_outcome (outcome_bind_ok (outcome_peek h)) ?_
  cases rest with
  | nil => exact .refused rfl
  | cons token rest =>
      cases token with
      | word first =>
          exact .of_outcome (outcome_bind_ok (outcome_advance h))
            (((reads_words Token.valueWord? calls [first] h.next).map fun _ _ => rfl).mono id)
      | quoted quote text =>
          exact .of_outcome (outcome_bind_ok (outcome_advance h)) (.pure h.next _)
      | literal form text =>
          exact .of_outcome (outcome_bind_ok (outcome_advance h)) (.pure h.next _)
      | and | or | not | openParen | closeParen | colon => exact .refused rfl

theorem reads_freeWords (first : Token) (h : c.At tokens rest) :
    Reads tokens (freeWords tokens calls first) c c.depth (rest.length < calls)
      (readFreeWords first rest) := by
  rw [freeWords]
  cases reads_words Token.freeWord? calls [] h with
  | unfinished hfew hwords => exact .unfinished hfew (outcome_bind_none hwords)
  | read hat hwords =>
      refine .of_outcome (outcome_bind_ok hwords) ?_
      rw [List.nil_append, readFreeWords]
      generalize wordRun Token.freeWord? rest = run at hat ⊢
      obtain ⟨taken, rest'⟩ := run
      cases taken with
      | nil => exact .refused rfl
      | cons word taken => exact .pure hat _

/-- The arms of a term that are no group. -/
theorem reads_term (h : c.At tokens (token :: rest)) (hnot : token ≠ .not)
    (hopen : token ≠ .openParen) :
    Reads tokens (term g tokens (calls + 1)) c c.depth (rest.length + 1 < calls)
      (readLeaf (token :: rest)) := by
  rw [term]
  refine .of_outcome (outcome_bind_ok (outcome_get c)) ?_
  refine .of_outcome (outcome_bind_ok (outcome_peek h)) ?_
  rw [h.drop_eq]
  cases token with
  | not => exact absurd rfl hnot
  | openParen => exact absurd rfl hopen
  | and | or | closeParen | colon => exact .refused rfl
  | quoted quote text => exact .of_outcome (outcome_bind_ok (outcome_advance h)) (.pure h.next _)
  | literal form text =>
      cases form with
      | bracketed => exact .refused rfl
      | dateTime => exact reads_freeWords _ h
      | time => exact reads_freeWords _ h
      | regex => exact .of_outcome (outcome_bind_ok (outcome_advance h)) (.pure h.next _)
  | word text =>
      refine .of_outcome (outcome_bind_ok (outcome_peekAt_one h)) ?_
      by_cases hcolon : rest.head? = some .colon
      · rw [if_pos hcolon]
        obtain ⟨after, rfl⟩ : ∃ after, rest = .colon :: after := List.head?_eq_some_iff.mp hcolon
        have hskip : (modify fun c => { c with position := c.position + 2 } : Walk PUnit).outcome
            c = some (.ok ((), c.step.step)) := rfl
        rw [readLeaf]
        dsimp only
        split
        · refine .of_outcome (outcome_bind_ok hskip) ?_
          have hvalue := reads_fieldValue calls text h.next.next
          generalize readValue text after = read at hvalue ⊢
          cases hvalue with
          | unfinished hfew hvalue =>
              refine .unfinished (mt (fun h => ?_) hfew) (outcome_bind_none hvalue)
              rw [List.length_cons] at h
              omega
          | refused hvalue => exact .refused (outcome_bind_error hvalue)
          | read hat hvalue => exact .of_outcome (outcome_bind_ok hvalue) (.pure hat _)
        · exact .refused rfl
      · rw [if_neg hcolon, readLeaf_freeWord rfl hcolon]
        exact reads_freeWords _ h

end leaves

/-! ### The recursion -/

section recursion
variable {α : Type}

/-- Values in front of those that are read. -/
def prepend (sofar : List α) (read : List α × List Token) : List α × List Token :=
  (sofar ++ read.1, read.2)

/-- What the parser reads after an operand of a branch. -/
def operandsAfter (g : Grammar) (depth : Nat) :
    List Token → Except SyntaxError (List Operand × List Token)
  | .and :: rest =>
    if operandFollows rest then readBranch g depth rest
    else .error (.danglingOperator Token.and.text)
  | [] => .ok ([], [])
  | .or :: rest => .ok ([], .or :: rest)
  | .closeParen :: rest => .ok ([], .closeParen :: rest)
  | rest => if g.implicitConjunction then readBranch g depth rest else .ok ([], rest)

/-- What the parser reads after a branch of a query. -/
def branchesAfter (g : Grammar) (depth : Nat) :
    List Token → Except SyntaxError (List Branch × List Token)
  | .or :: rest =>
    if operandFollows rest then readQuery g depth rest
    else .error (.danglingOperator Token.or.text)
  | rest => .ok ([], rest)

theorem readBranch_eq_bind (g : Grammar) (depth : Nat) (tokens : List Token) :
    readBranch g depth tokens = (readOperand g depth tokens).bind fun (operand, rest) =>
      (operandsAfter g depth rest).map (prepend [operand]) := by
  rw [readBranch_eq]
  cases readOperand g depth tokens with
  | error e => rfl
  | ok read =>
      obtain ⟨operand, rest⟩ := read
      cases rest with
      | nil => rfl
      | cons token rest =>
          cases token with
          | and | or | not | openParen | closeParen | colon | quoted | literal | word =>
              simp only [operandsAfter, Except.bind]
              repeat' split
              all_goals rfl

theorem readQuery_eq_bind (g : Grammar) (depth : Nat) (tokens : List Token) :
    readQuery g depth tokens = (readBranch g depth tokens).bind fun (branch, rest) =>
      (branchesAfter g depth rest).map (prepend [branch]) := by
  rw [readQuery_eq]
  cases readBranch g depth tokens with
  | error e => rfl
  | ok read =>
      obtain ⟨branch, rest⟩ := read
      cases rest with
      | nil => rfl
      | cons token rest =>
          cases token with
          | and | or | not | openParen | closeParen | colon | quoted | literal | word =>
              simp only [branchesAfter, Except.bind]
              repeat' split
              all_goals rfl

/-- No more values. -/
theorem reads_none {enough : Prop} (h : c.At tokens rest) (sofar : List α) :
    Reads tokens (pure sofar : Walk (List α)) c c.depth enough
      ((Except.ok ([], rest)).map (prepend sofar)) := by
  rw [Except.map, prepend, List.append_nil]
  exact .pure h sofar

theorem map_prepend_nil (result : Except SyntaxError (List α × List Token)) :
    result.map (prepend []) = result := by
  cases result <;> rfl

theorem map_prepend_bind (sofar : List α)
    (result : Except SyntaxError (α × List Token))
    (more : List Token → Except SyntaxError (List α × List Token)) :
    (result.bind fun (value, rest) => (more rest).map (prepend [value])).map (prepend sofar) =
      result.bind fun (value, rest) => (more rest).map (prepend (sofar ++ [value])) := by
  cases result with
  | error e => rfl
  | ok read =>
      dsimp only [Except.bind]
      cases more read.2 with
      | error e => rfl
      | ok after => simp [Except.map, prepend]

end recursion

/-- An operator, and what has to follow it. -/
theorem reads_operator {α : Type} {more : Walk α} {enough : Prop}
    {result : Except SyntaxError (α × List Token)} (hat : c.At tokens (token :: rest))
    (hmore : rest ≠ [] → Reads tokens more c.step c.depth enough result) :
    Reads tokens (do operator tokens token; more) c c.depth enough
      (if operandFollows rest then result else .error (.danglingOperator token.text)) := by
  have hoperator := outcome_operator hat
  split
  · next hfollows =>
    rw [if_pos hfollows] at hoperator
    refine .of_outcome (outcome_bind_ok hoperator) (hmore ?_)
    rintro rfl
    cases hfollows
  · next hfollows =>
    rw [if_neg hfollows] at hoperator
    exact .refused (outcome_bind_error hoperator)

theorem rest_lt_of_plain {α : Type} {parsed : Except SyntaxError (Parsed α tokens)} {value : α}
    (h : parsed.map Parsed.plain = .ok (value, rest)) : rest.length < tokens.length := by
  cases parsed with
  | error e => cases h
  | ok parsed =>
      cases h
      exact parsed.shorter

/-- The walk is the parser, with so many calls. -/
structure Follows (g : Grammar) (tokens : List Token) (calls : Nat) : Prop where
  operand : ∀ {c : Cursor} {rest : List Token}, c.At tokens rest → rest ≠ [] →
    Reads tokens (Walk.operand g tokens calls) c c.depth (4 * rest.length + 3 ≤ calls)
      (readOperand g c.depth rest)
  term : ∀ {c : Cursor} {rest : List Token}, c.At tokens rest → rest ≠ [] →
    (∀ after, rest ≠ .not :: after) →
    Reads tokens (Walk.term g tokens calls) c c.depth (4 * rest.length + 2 ≤ calls)
      (readOperand g c.depth rest)
  branch : ∀ {c : Cursor} {rest : List Token}, c.At tokens rest → rest ≠ [] →
    Reads tokens (Walk.branch g tokens calls) c c.depth (4 * rest.length + 4 ≤ calls)
      (readBranch g c.depth rest)
  operands : ∀ {c : Cursor} {rest : List Token} (sofar : List Operand), c.At tokens rest →
    Reads tokens (Walk.operands g tokens calls sofar) c c.depth (4 * rest.length + 4 ≤ calls)
      ((operandsAfter g c.depth rest).map (prepend sofar))
  query : ∀ {c : Cursor} {rest : List Token}, c.At tokens rest → rest ≠ [] →
    Reads tokens (Walk.query g tokens calls) c c.depth (4 * rest.length + 5 ≤ calls)
      (readQuery g c.depth rest)
  branches : ∀ {c : Cursor} {rest : List Token} (sofar : List Branch), c.At tokens rest →
    Reads tokens (Walk.branches g tokens calls sofar) c c.depth (4 * rest.length + 5 ≤ calls)
      ((branchesAfter g c.depth rest).map (prepend sofar))

namespace Follows
variable {calls : Nat}

/-- A negation: the operator, and an operand one level deeper. -/
theorem operand_succ (h : Follows g tokens calls) (hat : c.At tokens rest) (hne : rest ≠ []) :
    Reads tokens (Walk.operand g tokens (calls + 1)) c c.depth (4 * rest.length + 3 ≤ calls + 1)
      (readOperand g c.depth rest) := by
  obtain ⟨token, rest, rfl⟩ := List.exists_cons_of_ne_nil hne
  by_cases hnot : token = .not
  · subst hnot
    have henter := outcome_enter g (c.position + 1) c.depth
    rw [Walk.operand, readOperand_not]
    refine .of_outcome (outcome_bind_ok (outcome_peek hat)) (reads_operator hat fun hne => ?_)
    split
    · next hdepth =>
      rw [if_pos hdepth] at henter
      refine .of_outcome (outcome_bind_ok henter) ?_
      refine .mono ((h.operand (hat.next.deep _) hne).map fun _ _ => rfl) fun henough => ?_
      rw [List.length_cons] at henough
      omega
    · next hdepth =>
      rw [if_neg hdepth] at henter
      exact .refused (outcome_bind_error henter)
  · have hterm := h.term hat hne fun _ heq => hnot (List.cons.inj heq).1
    rw [Walk.operand]
    refine .mono (.of_outcome (outcome_bind_ok (outcome_peek hat)) ?_) Nat.le_of_succ_le_succ
    cases token with
    | not => exact absurd rfl hnot
    | _ => exact hterm

/-- A group: a query one level deeper, and the closing parenthesis. -/
theorem term_openParen (h : Follows g tokens calls) (hat : c.At tokens (.openParen :: rest)) :
    Reads tokens (Walk.term g tokens (calls + 1)) c c.depth (4 * rest.length + 5 ≤ calls)
      (readOperand g c.depth (.openParen :: rest)) := by
  have henter := outcome_enter g (c.position + 1) c.depth
  rw [Walk.term, readOperand_openParen]
  refine .of_outcome (outcome_bind_ok (outcome_get c)) ?_
  refine .of_outcome (outcome_bind_ok (outcome_peek hat)) ?_
  refine .of_outcome (outcome_bind_ok (outcome_advance hat)) ?_
  refine .of_outcome (outcome_bind_ok (outcome_peek hat.next)) ?_
  rw [hat.drop_eq]
  cases rest with
  | nil => exact .refused rfl
  | cons token rest =>
      have hsome : ¬(token :: rest).head?.isNone = true := Bool.false_ne_true
      have hcons : ¬(token :: rest).isEmpty = true := Bool.false_ne_true
      rw [if_neg hsome, if_neg hcons]
      split
      · next hdepth =>
        rw [if_pos hdepth] at henter
        refine .of_outcome (outcome_bind_ok henter) ?_
        have hquery := h.query (hat.next.deep (c.depth + 1)) (List.cons_ne_nil token rest)
        generalize readQuery g (c.depth + 1) (token :: rest) = read at hquery ⊢
        cases hquery with
        | unfinished hfew hquery => exact .unfinished hfew (outcome_bind_none hquery)
        | refused hquery => exact .refused (outcome_bind_error hquery)
        | @read inner after position hafter hquery =>
            refine .of_outcome (outcome_bind_ok hquery) ?_
            refine .of_outcome (outcome_bind_ok (outcome_leave position c.depth)) ?_
            have hafter := hafter.deep c.depth
            cases after with
            | nil =>
                exact .of_outcome (outcome_bind_ok (outcome_advance_end hafter)) (.refused rfl)
            | cons token after =>
                refine .of_outcome (outcome_bind_ok (outcome_advance hafter)) ?_
                cases token with
                | closeParen => exact .pure hafter.next _
                | _ => exact .refused rfl
      · next hdepth =>
        rw [if_neg hdepth] at henter
        exact .refused (outcome_bind_error henter)

theorem term_succ (h : Follows g tokens calls) (hat : c.At tokens rest) (hne : rest ≠ [])
    (hnot : ∀ after, rest ≠ .not :: after) :
    Reads tokens (Walk.term g tokens (calls + 1)) c c.depth (4 * rest.length + 2 ≤ calls + 1)
      (readOperand g c.depth rest) := by
  obtain ⟨token, rest, rfl⟩ := List.exists_cons_of_ne_nil hne
  by_cases hopen : token = .openParen
  · subst hopen
    refine (h.term_openParen hat).mono fun henough => ?_
    rw [List.length_cons] at henough
    omega
  · rw [readOperand_leaf g c.depth hnot fun _ heq => hopen (List.cons.inj heq).1]
    refine (reads_term hat (fun heq => hnot rest (heq ▸ rfl)) hopen).mono fun henough => ?_
    rw [List.length_cons] at henough
    omega

/-- One operand, and the others after the operands so far. -/
theorem next_operand (h : Follows g tokens calls) (sofar : List Operand) (hat : c.At tokens rest)
    (hne : rest ≠ []) :
    Reads tokens (do Walk.operands g tokens calls (sofar ++ [← Walk.operand g tokens calls])) c
      c.depth (4 * rest.length + 3 ≤ calls) ((readBranch g c.depth rest).map (prepend sofar)) := by
  rw [readBranch_eq_bind, map_prepend_bind]
  refine (h.operand hat hne).bind fun operand rest' position heq hat' => ?_
  have hlt := rest_lt_of_plain heq
  exact (h.operands _ hat').mono fun henough => by omega

theorem branch_succ (h : Follows g tokens calls) (hat : c.At tokens rest) (hne : rest ≠ []) :
    Reads tokens (Walk.branch g tokens (calls + 1)) c c.depth (4 * rest.length + 4 ≤ calls + 1)
      (readBranch g c.depth rest) := by
  have hread := h.next_operand [] hat hne
  rw [map_prepend_nil] at hread
  exact hread.mono Nat.le_of_succ_le_succ

theorem operands_succ (h : Follows g tokens calls) (sofar : List Operand) (hat : c.At tokens rest) :
    Reads tokens (Walk.operands g tokens (calls + 1) sofar) c c.depth
      (4 * rest.length + 4 ≤ calls + 1) ((operandsAfter g c.depth rest).map (prepend sofar)) := by
  rw [Walk.operands]
  refine .of_outcome (outcome_bind_ok (outcome_peek hat)) ?_
  cases rest with
  | nil => exact reads_none hat sofar
  | cons token rest =>
      -- Without `AND` the next operand starts at the token itself.
      have hjoined : Reads tokens (if g.implicitConjunction then
            (do Walk.operands g tokens calls (sofar ++ [← Walk.operand g tokens calls]))
          else pure sofar) c c.depth (4 * (token :: rest).length + 4 ≤ calls + 1)
          ((if g.implicitConjunction then readBranch g c.depth (token :: rest)
            else .ok ([], token :: rest)).map (prepend sofar)) := by
        split
        · exact (h.next_operand sofar hat (List.cons_ne_nil _ _)).mono Nat.le_of_succ_le_succ
        · exact reads_none hat sofar
      cases token with
      | and =>
          rw [operandsAfter, apply_ite (Except.map (prepend sofar))]
          refine reads_operator hat fun hne => ?_
          refine (h.next_operand sofar hat.next hne).mono fun henough => ?_
          rw [List.length_cons] at henough
          omega
      | or => exact reads_none hat sofar
      | closeParen => exact reads_none hat sofar
      | _ => exact hjoined

/-- One branch, and the others after the branches so far. -/
theorem next_branch (h : Follows g tokens calls) (sofar : List Branch) (hat : c.At tokens rest)
    (hne : rest ≠ []) :
    Reads tokens (do Walk.branches g tokens calls (sofar ++ [← Walk.branch g tokens calls])) c
      c.depth (4 * rest.length + 4 ≤ calls) ((readQuery g c.depth rest).map (prepend sofar)) := by
  rw [readQuery_eq_bind, map_prepend_bind]
  refine (h.branch hat hne).bind fun branch rest' position heq hat' => ?_
  have hlt := rest_lt_of_plain heq
  exact (h.branches _ hat').mono fun henough => by omega

theorem query_succ (h : Follows g tokens calls) (hat : c.At tokens rest) (hne : rest ≠ []) :
    Reads tokens (Walk.query g tokens (calls + 1)) c c.depth (4 * rest.length + 5 ≤ calls + 1)
      (readQuery g c.depth rest) := by
  have hread := h.next_branch [] hat hne
  rw [map_prepend_nil] at hread
  exact hread.mono Nat.le_of_succ_le_succ

theorem branches_succ (h : Follows g tokens calls) (sofar : List Branch) (hat : c.At tokens rest) :
    Reads tokens (Walk.branches g tokens (calls + 1) sofar) c c.depth
      (4 * rest.length + 5 ≤ calls + 1) ((branchesAfter g c.depth rest).map (prepend sofar)) := by
  rw [Walk.branches]
  refine .of_outcome (outcome_bind_ok (outcome_peek hat)) ?_
  cases rest with
  | nil => exact reads_none hat sofar
  | cons token rest =>
      cases token with
      | or =>
          rw [branchesAfter, apply_ite (Except.map (prepend sofar))]
          refine reads_operator hat fun hne => ?_
          refine (h.next_branch sofar hat.next hne).mono fun henough => ?_
          rw [List.length_cons] at henough
          omega
      | _ => exact reads_none hat sofar

end Follows

/-- The walk is the parser, with any number of calls. -/
theorem follows (g : Grammar) (tokens : List Token) (calls : Nat) : Follows g tokens calls := by
  induction calls with
  | zero =>
      exact {
        operand := fun _ _ => .unfinished (by omega) rfl
        term := fun _ _ _ => .unfinished (by omega) rfl
        branch := fun _ _ => .unfinished (by omega) rfl
        operands := fun _ _ => .unfinished (by omega) rfl
        query := fun _ _ => .unfinished (by omega) rfl
        branches := fun _ _ => .unfinished (by omega) rfl }
  | succ calls ih =>
      exact ⟨ih.operand_succ, ih.term_succ, ih.branch_succ, ih.operands_succ, ih.query_succ,
        ih.branches_succ⟩

/-! ### Progress -/

section progress
variable {α : Type} {walk : Walk α} {value : α} {c' : Cursor} {enough : List Token → Prop}
  {read : List Token → Except SyntaxError (α × List Token)}

/-- The walk reads nothing where there are no more tokens. -/
def Misses (walk : Walk α) (c : Cursor) : Prop :=
  walk.outcome c = none ∨ ∃ error, walk.outcome c = some (.error (.atEnd error))

theorem Misses.bind {β : Type} {next : α → Walk β} (h : Misses walk c) :
    Misses (walk >>= next) c := by
  rcases h with h | ⟨error, h⟩
  · exact .inl (outcome_bind_none h)
  · exact .inr ⟨error, outcome_bind_error h⟩

theorem term_misses (calls : Nat) (h : tokens.length ≤ c.position) :
    Misses (term g tokens calls) c := by
  cases calls with
  | zero => exact .inl rfl
  | succ calls =>
      rw [Misses, term, outcome_bind_ok (outcome_get c), outcome_bind_ok (outcome_peek_end h)]
      exact .inr ⟨_, rfl⟩

theorem operand_misses (calls : Nat) (h : tokens.length ≤ c.position) :
    Misses (operand g tokens calls) c := by
  cases calls with
  | zero => exact .inl rfl
  | succ calls =>
      rw [Misses, operand, outcome_bind_ok (outcome_peek_end h)]
      exact term_misses calls h

theorem branch_misses (calls : Nat) (h : tokens.length ≤ c.position) :
    Misses (branch g tokens calls) c := by
  cases calls with
  | zero => exact .inl rfl
  | succ calls =>
      rw [branch]
      exact (operand_misses calls h).bind

theorem query_misses (calls : Nat) (h : tokens.length ≤ c.position) :
    Misses (query g tokens calls) c := by
  cases calls with
  | zero => exact .inl rfl
  | succ calls =>
      rw [query]
      exact (branch_misses calls h).bind

/-- A walk that takes as many tokens as a reader does moves the cursor on, if the reader takes some
token. -/
theorem advances_of_reads (hmisses : tokens.length ≤ c.position → Misses walk c)
    (hreads : ∀ {rest}, c.At tokens rest → rest ≠ [] →
      Reads tokens walk c c.depth (enough rest) (read rest))
    (hshorter : ∀ {tokens rest value}, read tokens = .ok (value, rest) →
      rest.length < tokens.length)
    (h : walk.outcome c = some (.ok (value, c'))) : c.Advances tokens c' := by
  -- `Reads` is about places among the tokens only, and the cursor may stand anywhere.
  by_cases hposition : c.position < tokens.length
  · obtain ⟨rest, hread, hdepth, hat⟩ :=
      (hreads (Cursor.at_drop hposition.le) (by simpa using hposition)).of_ok h
    have hlt := hshorter hread
    have hrest := congrArg List.length hat.drop_eq
    rw [List.length_drop] at hlt hrest
    exact ⟨by omega, hat.position_le, hdepth⟩
  · rcases hmisses (Nat.le_of_not_lt hposition) with hnone | ⟨error, herror⟩
    · rw [h] at hnone
      cases hnone
    · rw [h] at herror
      cases herror

/-- The walk over all tokens ends as the parser does. -/
theorem whole_outcome (hne : tokens ≠ []) (calls : Nat) :
    (whole g tokens calls).outcome {} = some (match Query.ofTokens g tokens with
        | .error error => .error (.refused error)
        | .ok query => .ok (query, ⟨tokens.length, 0⟩)) ∨
      calls < 4 * tokens.length + 5 ∧ (whole g tokens calls).outcome {} = none := by
  have hread := (follows g tokens calls).query (Cursor.at_drop (c := {}) (Nat.zero_le _)) hne
  change Reads tokens (query g tokens calls) {} 0 (4 * tokens.length + 5 ≤ calls)
    (readQuery g 0 tokens) at hread
  rw [whole, Query.ofTokens]
  generalize readQuery g 0 tokens = result at hread
  cases hread with
  | unfinished hfew hquery => exact .inr ⟨Nat.lt_of_not_le hfew, outcome_bind_none hquery⟩
  | refused hquery => exact .inl (outcome_bind_error hquery)
  | @read query rest position hat hquery =>
      left
      rw [outcome_bind_ok hquery, outcome_bind_ok (outcome_peek hat)]
      cases rest with
      | nil =>
          have hposition : position = tokens.length :=
            Nat.le_antisymm hat.position_le (List.drop_eq_nil_iff.mp hat.drop_eq)
          rw [hposition]
          rfl
      | cons token rest =>
          cases token with
          | closeParen =>
              dsimp only [List.head?_cons]
              rw [outcome_bind_ok (outcome_get _), outcome_refuse, hat.drop_eq]
          | _ => rfl

end progress

/-- **The parser makes progress and never comes where it should not.**  Wherever an operand, a
branch or a query is read, the cursor is moved on by one token at least, not past the end, and is as
deep as before.  The walk over all tokens, of which there are some, ends as the parser does if four
calls for each token and a few more are allowed, and with fewer it comes to nothing else: no term is
read at the end of the tokens or at a `NOT`, and no group or negation is left that was not
entered. -/
theorem progress (g : Grammar) {tokens : List Token} (hne : tokens ≠ []) :
    (∀ calls c c' read, (operand g tokens calls).outcome c = some (.ok (read, c')) →
      c.Advances tokens c') ∧
    (∀ calls c c' read, (branch g tokens calls).outcome c = some (.ok (read, c')) →
      c.Advances tokens c') ∧
    (∀ calls c c' read, (query g tokens calls).outcome c = some (.ok (read, c')) →
      c.Advances tokens c') ∧
    ∀ calls, (whole g tokens calls).outcome {} = some (match Query.ofTokens g tokens with
        | .error error => .error (.refused error)
        | .ok query => .ok (query, ⟨tokens.length, 0⟩)) ∨
      calls < 4 * tokens.length + 5 ∧ (whole g tokens calls).outcome {} = none := by
  refine ⟨fun calls c c' read => ?_, fun calls c c' read => ?_, fun calls c c' read => ?_,
    whole_outcome hne⟩
  · exact advances_of_reads (operand_misses calls) (follows g tokens calls).operand
      fun hread => rest_lt_of_plain hread
  · exact advances_of_reads (branch_misses calls) (follows g tokens calls).branch
      fun hread => rest_lt_of_plain hread
  · exact advances_of_reads (query_misses calls) (follows g tokens calls).query
      fun hread => rest_lt_of_plain hread

/-- Words in a group that are cut short in front of a field name, with two operators and without. -/
theorem progress_group :
    ∃ tokens : List Token,
      tokens = [.not, .openParen, .word "a", .word "b", .colon, .word "c", .closeParen, .or,
        .literal .time "10:30"] ∧ tokens ≠ [] ∧
      (whole {} tokens 41).outcome {} =
        some (.ok ([[.not (.group [[.text (.words ["a"]), .field ⟨["b"]⟩ (.words ["c"])]])],
          [.text (.words ["10:30"])]], ⟨9, 0⟩)) := by
  have hne : ([.not, .openParen, .word "a", .word "b", .colon, .word "c", .closeParen, .or,
      .literal .time "10:30"] : List Token) ≠ [] := List.cons_ne_nil _ _
  have hparse : Query.ofTokens {} [.not, .openParen, .word "a", .word "b", .colon, .word "c",
      .closeParen, .or, .literal .time "10:30"] =
        .ok [[.not (.group [[.text (.words ["a"]), .field ⟨["b"]⟩ (.words ["c"])]])],
          [.text (.words ["10:30"])]] := by
    cbv
  obtain ⟨-, -, -, hwhole⟩ := progress {} hne
  rw [hparse] at hwhole
  exact ⟨_, rfl, hne, (hwhole 41).resolve_right fun hfew => absurd hfew.1 (by decide)⟩

end Walk

end QueryFilter
