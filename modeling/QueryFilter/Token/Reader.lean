/-! # Readers

A reader takes a lexeme off the front of a text.  It answers with the characters it took and the
rest of the text, or refuses.  Readers are built from single characters by sequence, ordered choice
and repetition; a choice that was made is never taken back.

The law of every reader is `Reader.Exact`: what was taken followed by the rest is the text.  The
combinators preserve it, and a reader that starts with a character takes at least one
(`Reader.Progress`). -/

namespace QueryFilter

/-- Takes a lexeme off the front of a text: the lexeme and the rest. -/
abbrev Reader := List Char → Option (List Char × List Char)

namespace Reader

/-! ### Building readers -/

/-- Takes nothing. -/
def nothing : Reader := fun cs => some ([], cs)

/-- Takes one character of the class. -/
def one (p : Char → Bool) : Reader
  | [] => none
  | c :: cs => if p c then some ([c], cs) else none

/-- Takes this very character. -/
def char (c : Char) : Reader := one (· == c)

/-- Takes the longest run of characters of the class, which may be empty. -/
def run (p : Char → Bool) : Reader := fun cs => some (cs.takeWhile p, cs.dropWhile p)

/-- One reader after the other. -/
def seq (r s : Reader) : Reader := fun cs =>
  match r cs with
  | none => none
  | some (a, rest) =>
    match s rest with
    | none => none
    | some (b, rest) => some (a ++ b, rest)

/-- The readers one after the other. -/
def chain : List Reader → Reader
  | [] => nothing
  | r :: rs => seq r (chain rs)

/-- The first of the readers that accepts. -/
def choice : List Reader → Reader
  | [] => fun _ => none
  | r :: rs => fun cs => (r cs).or (choice rs cs)

/-- The reader if it accepts, otherwise nothing. -/
def optional (r : Reader) : Reader := fun cs => (r cs).or (some ([], cs))

/-- The characters of a word, in order. -/
def chars (word : List Char) : Reader := chain (word.map char)

/-- The reader `n` times. -/
def times (n : Nat) (r : Reader) : Reader := chain (List.replicate n r)

/-- A run of at least one character of the class. -/
def run1 (p : Char → Bool) : Reader := seq (one p) (run p)

/-- One decimal digit. -/
def digit : Reader := one Char.isDigit

/-- Exactly `n` decimal digits. -/
def digits (n : Nat) : Reader := times n digit

/-- The reader accepts the text and takes all of it. -/
def acceptsAll (r : Reader) (cs : List Char) : Bool :=
  match r cs with
  | some (_, []) => true
  | _ => false

/-! ### Nothing is lost -/

/-- What is taken, followed by the rest, is the text. -/
def Exact (r : Reader) : Prop := ∀ cs a rest, r cs = some (a, rest) → cs = a ++ rest

/-- At least one character is taken. -/
def Progress (r : Reader) : Prop := ∀ cs a rest, r cs = some (a, rest) → a ≠ []

theorem exact_nothing : Exact nothing := by
  intro cs a rest h
  simp only [nothing, Option.some.injEq, Prod.mk.injEq] at h
  rw [← h.1, ← h.2, List.nil_append]

theorem exact_one (p : Char → Bool) : Exact (one p) := by
  intro cs a rest h
  cases cs with
  | nil => simp [one] at h
  | cons c cs =>
    simp only [one] at h
    split at h
    · simp only [Option.some.injEq, Prod.mk.injEq] at h
      rw [← h.1, ← h.2]; rfl
    · simp at h

theorem progress_one (p : Char → Bool) : Progress (one p) := by
  intro cs a rest h
  cases cs with
  | nil => simp [one] at h
  | cons c cs =>
    simp only [one] at h
    split at h
    · simp only [Option.some.injEq, Prod.mk.injEq] at h
      simp [← h.1]
    · simp at h

theorem exact_run (p : Char → Bool) : Exact (run p) := by
  intro cs a rest h
  simp only [run, Option.some.injEq, Prod.mk.injEq] at h
  rw [← h.1, ← h.2, List.takeWhile_append_dropWhile]

theorem seq_eq_some {r s : Reader} {cs a rest : List Char} :
    seq r s cs = some (a, rest) ↔
      ∃ b c mid, r cs = some (b, mid) ∧ s mid = some (c, rest) ∧ a = b ++ c := by
  unfold seq
  cases hr : r cs with
  | none => simp
  | some p =>
    obtain ⟨b, mid⟩ := p
    cases hs : s mid with
    | none =>
      constructor
      · intro h; simp [hs] at h
      · rintro ⟨b', c, mid', h1, h2, -⟩
        simp only [Option.some.injEq, Prod.mk.injEq] at h1
        rw [← h1.2, hs] at h2
        simp at h2
    | some q =>
      obtain ⟨c, rest'⟩ := q
      constructor
      · intro h
        simp only [hs, Option.some.injEq, Prod.mk.injEq] at h
        exact ⟨b, c, mid, rfl, by rw [hs, h.2], h.1.symm⟩
      · rintro ⟨b', c', mid', h1, h2, h3⟩
        simp only [Option.some.injEq, Prod.mk.injEq] at h1
        rw [← h1.2, hs] at h2
        simp only [Option.some.injEq, Prod.mk.injEq] at h2
        simp [hs, h3, h1.1, h2.1, h2.2]

theorem exact_seq {r s : Reader} (hr : Exact r) (hs : Exact s) : Exact (seq r s) := by
  intro cs a rest h
  obtain ⟨b, c, mid, h1, h2, rfl⟩ := seq_eq_some.mp h
  rw [hr _ _ _ h1, hs _ _ _ h2, List.append_assoc]

theorem progress_seq_left {r s : Reader} (hr : Progress r) : Progress (seq r s) := by
  intro cs a rest h
  obtain ⟨b, c, mid, h1, h2, rfl⟩ := seq_eq_some.mp h
  simp [hr _ _ _ h1]

theorem progress_seq_right {r s : Reader} (hs : Progress s) : Progress (seq r s) := by
  intro cs a rest h
  obtain ⟨b, c, mid, h1, h2, rfl⟩ := seq_eq_some.mp h
  simp [hs _ _ _ h2]

theorem exact_chain {rs : List Reader} (h : ∀ r ∈ rs, Exact r) : Exact (chain rs) := by
  induction rs with
  | nil => exact exact_nothing
  | cons r rs ih =>
    exact exact_seq (h r (by simp)) (ih fun s hs => h s (by simp [hs]))

theorem progress_chain {rs : List Reader} {r : Reader} (hm : r ∈ rs) (hr : Progress r) :
    Progress (chain rs) := by
  induction rs with
  | nil => simp at hm
  | cons s rs ih =>
    rcases List.mem_cons.mp hm with rfl | hm
    · exact progress_seq_left hr
    · exact progress_seq_right (ih hm)

theorem choice_eq_some {rs : List Reader} {cs : List Char} {p : List Char × List Char}
    (h : choice rs cs = some p) : ∃ r ∈ rs, r cs = some p := by
  induction rs with
  | nil => simp [choice] at h
  | cons r rs ih =>
    simp only [choice, Option.or_eq_some_iff] at h
    rcases h with h | ⟨-, h⟩
    · exact ⟨r, by simp, h⟩
    · obtain ⟨s, hs, h⟩ := ih h
      exact ⟨s, by simp [hs], h⟩

theorem exact_choice {rs : List Reader} (h : ∀ r ∈ rs, Exact r) : Exact (choice rs) := by
  intro cs a rest hc
  obtain ⟨r, hr, hc⟩ := choice_eq_some hc
  exact h r hr _ _ _ hc

theorem exact_optional {r : Reader} (hr : Exact r) : Exact (optional r) := by
  intro cs a rest h
  simp only [optional, Option.or_eq_some_iff, Option.some.injEq, Prod.mk.injEq] at h
  rcases h with h | ⟨-, rfl, rfl⟩
  · exact hr _ _ _ h
  · rfl

theorem exact_char (c : Char) : Exact (char c) := exact_one _

theorem progress_char (c : Char) : Progress (char c) := progress_one _

theorem char_eq_some {c : Char} {cs a rest : List Char} :
    char c cs = some (a, rest) ↔ a = [c] ∧ cs = c :: rest := by
  cases cs with
  | nil => simp [char, one]
  | cons d cs =>
    simp only [char, one, beq_iff_eq, List.cons.injEq]
    split
    · next hd => simp only [hd, Option.some.injEq, Prod.mk.injEq, true_and, eq_comm]
    · next hd => simp [hd]

theorem exact_chars (word : List Char) : Exact (chars word) := by
  apply exact_chain
  simp only [List.mem_map]
  rintro r ⟨c, -, rfl⟩
  exact exact_char c

theorem exact_times (n : Nat) {r : Reader} (hr : Exact r) : Exact (times n r) := by
  apply exact_chain
  intro s hs
  rw [List.eq_of_mem_replicate hs]
  exact hr

theorem exact_run1 (p : Char → Bool) : Exact (run1 p) := exact_seq (exact_one p) (exact_run p)

theorem progress_run1 (p : Char → Bool) : Progress (run1 p) := progress_seq_left (progress_one p)

theorem exact_digit : Exact digit := exact_one _

theorem progress_digit : Progress digit := progress_one _

theorem exact_digits (n : Nat) : Exact (digits n) := exact_times n exact_digit

theorem progress_digits (n : Nat) : Progress (digits (n + 1)) :=
  progress_chain (by simp) progress_digit

end Reader

end QueryFilter
