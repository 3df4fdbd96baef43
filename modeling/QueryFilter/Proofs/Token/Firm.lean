import QueryFilter.Proofs.Token.Boundary
import QueryFilter.Proofs.Token.Spelling

/-! # Readers that take again what they took

`Reader.Firm p r` says that the reader `r` takes again what it took off some text when another text
comes after it, if only that text does not start with a character of the class `p`.  For a reader of
fixed width or with a closing mark the class is empty (`Reader.never`); for an optional tail it is
the characters with which the tail can start.

The combinators preserve it, and so the readers of all literals are firm with the class of the
characters that can go on a date or a time (`LiteralForm.firm_reader`). -/

namespace QueryFilter

namespace Reader

/-! ### Combinators -/

/-- What the reader took it takes again, in front of any text that does not start with a character of
the class. -/
def Firm (p : Char → Bool) (r : Reader) : Prop :=
  ∀ cs a rest tail, r cs = some (a, rest) → (∀ c ∈ tail.head?, p c = false) →
    r (a ++ tail) = some (a, tail)

/-- What the reader takes does not start with a character of the class. -/
def Avoids (p : Char → Bool) (r : Reader) : Prop :=
  ∀ cs a rest, r cs = some (a, rest) → ∀ c ∈ a.head?, p c = false

/-- The reader refuses every text that does not start with a character of the class. -/
def Needs (p : Char → Bool) (r : Reader) : Prop :=
  ∀ cs, (∀ c ∈ cs.head?, p c = false) → r cs = none

/-- The class without characters. -/
def never (_ : Char) : Bool := false

section firm
variable {p q : Char → Bool} {r s : Reader}

theorem Firm.mono (h : Firm p r) (hpq : ∀ c, q c = false → p c = false) : Firm q r :=
  fun cs a rest tail hr htail => h cs a rest tail hr fun c hc => hpq c (htail c hc)

theorem firm_nothing : Firm p nothing := by
  intro cs a rest tail h _
  cases h
  rfl

theorem firm_one (q : Char → Bool) : Firm p (one q) := by
  intro cs a rest tail h _
  cases cs with
  | nil => cases h
  | cons c cs =>
      simp only [one] at h
      split at h
      · next hc =>
        cases h
        simp [one, hc]
      · cases h

theorem length_one {q : Char → Bool} {cs a rest : List Char} (h : one q cs = some (a, rest)) :
    a.length = 1 := by
  cases cs with
  | nil => cases h
  | cons c cs =>
      simp only [one] at h
      split at h
      · cases h
        rfl
      · cases h

theorem firm_run (p : Char → Bool) : Firm p (run p) := by
  intro cs a rest tail h htail
  cases h
  have htaken : ∀ c ∈ cs.takeWhile p, p c = true := fun c hc =>
    List.all_eq_true.mp List.all_takeWhile c hc
  have hstop : tail.takeWhile p = [] ∧ tail.dropWhile p = tail := by
    cases tail with
    | nil => exact ⟨rfl, rfl⟩
    | cons c tail =>
        have hc : p c = false := htail c rfl
        simp [hc]
  rw [run, List.takeWhile_append_of_pos htaken, List.dropWhile_append_of_pos htaken, hstop.1,
    hstop.2, List.append_nil]

/-- Two readers one after the other, of which the second takes something. -/
theorem firm_seq (hr : Firm p r) (hs : Firm q s) (havoids : Avoids p s) (hprogress : Progress s) :
    Firm q (seq r s) := by
  intro cs a rest tail h htail
  obtain ⟨b, c, mid, h1, h2, rfl⟩ := seq_eq_some.mp h
  have hhead : ∀ d ∈ (c ++ tail).head?, p d = false := by
    obtain ⟨d, ds, hc⟩ := List.exists_cons_of_ne_nil (hprogress _ _ _ h2)
    have hfirst := havoids _ _ _ h2
    rw [hc] at hfirst ⊢
    exact hfirst
  have hfirst := hr _ _ _ (c ++ tail) h1 hhead
  rw [List.append_assoc]
  exact seq_eq_some.mpr ⟨b, c, c ++ tail, hfirst, hs _ _ _ tail h2 htail, rfl⟩

/-- Two readers one after the other, of which the second may take nothing. -/
theorem firm_seq_optional (hr : Firm p r) (hs : Firm q s) (havoids : Avoids p s)
    (hpq : ∀ c, q c = false → p c = false) : Firm q (seq r s) := by
  intro cs a rest tail h htail
  obtain ⟨b, c, mid, h1, h2, rfl⟩ := seq_eq_some.mp h
  have hhead : ∀ d ∈ (c ++ tail).head?, p d = false := by
    intro d hd
    rw [List.head?_append, Option.mem_def, Option.or_eq_some_iff] at hd
    rcases hd with hd | ⟨-, hd⟩
    · exact havoids _ _ _ h2 d hd
    · exact hpq d (htail d hd)
  have hfirst := hr _ _ _ (c ++ tail) h1 hhead
  rw [List.append_assoc]
  exact seq_eq_some.mpr ⟨b, c, c ++ tail, hfirst, hs _ _ _ tail h2 htail, rfl⟩

/-- A reader of a fixed width, and then another. -/
theorem firm_seq_never (hr : Firm never r) (hs : Firm q s) : Firm q (seq r s) := by
  intro cs a rest tail h htail
  obtain ⟨b, c, mid, h1, h2, rfl⟩ := seq_eq_some.mp h
  have hfirst := hr _ _ _ (c ++ tail) h1 fun _ _ => rfl
  rw [List.append_assoc]
  exact seq_eq_some.mpr ⟨b, c, c ++ tail, hfirst, hs _ _ _ tail h2 htail, rfl⟩

theorem firm_chain_never {rs : List Reader} (h : ∀ r ∈ rs, Firm never r) :
    Firm never (chain rs) := by
  induction rs with
  | nil => exact firm_nothing
  | cons r rs ih => exact firm_seq_never (h r (by simp)) (ih fun s hs => h s (by simp [hs]))

theorem firm_chain_single (hr : Firm p r) : Firm p (chain [r]) := by
  apply firm_seq_optional hr firm_nothing
  · intro cs a rest h
    cases h
    simp
  · exact fun _ h => h

theorem firm_optional (hr : Firm p r) (hneeds : Needs q r) (hpq : ∀ c, q c = false → p c = false) :
    Firm q (optional r) := by
  intro cs a rest tail h htail
  simp only [optional, Option.or_eq_some_iff, Option.some.injEq, Prod.mk.injEq] at h
  rcases h with h | ⟨-, rfl, -⟩
  · have hagain := hr _ _ _ tail h fun c hc => hpq c (htail c hc)
    rw [optional, hagain]
    rfl
  · rw [optional, List.nil_append, hneeds tail htail]
    rfl

theorem firm_char (c : Char) : Firm p (char c) := firm_one _

theorem firm_digits (n : Nat) : Firm never (digits n) := by
  apply firm_chain_never
  intro r hr
  rw [List.eq_of_mem_replicate hr]
  exact firm_one _

/-! ### First characters -/

theorem needs_one (p : Char → Bool) : Needs p (one p) := by
  intro cs h
  cases cs with
  | nil => rfl
  | cons c cs =>
      have hc : p c = false := h c rfl
      simp [one, hc]

theorem Needs.seq (hr : Needs p r) (s : Reader) : Needs p (Reader.seq r s) := by
  intro cs h
  rw [Reader.seq, hr cs h]

theorem Needs.mono (hr : Needs p r) (hpq : ∀ c, q c = false → p c = false) : Needs q r :=
  fun cs h => hr cs fun c hc => hpq c (h c hc)

theorem needs_char (c : Char) : Needs (· == c) (char c) := needs_one _

theorem avoids_one {q : Char → Bool} (h : ∀ c, q c = true → p c = false) : Avoids p (one q) := by
  intro cs a rest hr
  cases cs with
  | nil => cases hr
  | cons c cs =>
      simp only [one] at hr
      split at hr
      · next hc =>
        cases hr
        simpa using h c hc
      · cases hr

theorem Avoids.seq (hr : Avoids p r) (hprogress : Progress r) (s : Reader) :
    Avoids p (Reader.seq r s) := by
  intro cs a rest h
  obtain ⟨b, c, mid, h1, h2, rfl⟩ := seq_eq_some.mp h
  obtain ⟨d, ds, hb⟩ := List.exists_cons_of_ne_nil (hprogress _ _ _ h1)
  have hfirst := hr _ _ _ h1
  rw [hb] at hfirst ⊢
  exact hfirst

theorem avoids_char {c : Char} (h : p c = false) : Avoids p (char c) := by
  apply avoids_one
  intro d hd
  rw [beq_iff_eq] at hd
  rw [hd, h]

theorem avoids_digits (h : ∀ c, c.isDigit = true → p c = false) (n : Nat) :
    Avoids p (digits (n + 1)) :=
  (avoids_one h).seq progress_digit _

theorem avoids_optional (hr : Avoids p r) : Avoids p (optional r) := by
  intro cs a rest h
  simp only [optional, Option.or_eq_some_iff, Option.some.injEq, Prod.mk.injEq] at h
  rcases h with h | ⟨-, rfl, -⟩
  · exact hr _ _ _ h
  · simp

theorem avoids_choice {rs : List Reader} (h : ∀ r ∈ rs, Avoids p r) : Avoids p (choice rs) := by
  intro cs a rest hc
  obtain ⟨r, hr, hc⟩ := choice_eq_some hc
  exact h r hr _ _ _ hc

theorem avoids_chain_single (hr : Avoids p r) : Avoids p (chain [r]) := by
  intro cs a rest h
  obtain ⟨b, c, mid, h1, h2, rfl⟩ := seq_eq_some.mp h
  cases h2
  rw [List.append_nil]
  exact hr _ _ _ h1

end firm

/-! ### Literals -/

theorem firm_bracketed : Firm never bracketed := by
  apply firm_seq_never (firm_char _)
  apply firm_seq (firm_run _)
  · exact firm_chain_single (firm_char _)
  · exact (avoids_char (by decide)).seq (progress_char _) _
  · exact progress_seq_left (progress_char _)

theorem regexBody_again (cs tail : List Char) :
    regexBody ((regexBody cs).1 ++ '/' :: tail) = ((regexBody cs).1, '/' :: tail) := by
  fun_induction regexBody cs with
  | case1 => rfl
  | case2 c cs body rest heq ih =>
      rw [heq] at ih
      simp [regexBody, ih]
  | case3 => rfl
  | case4 c cs hesc hc body rest heq ih =>
      rw [heq] at ih
      have hne : c ≠ '\\' := by
        rintro rfl
        simp at hc
      rw [List.cons_append, regexBody]
      · simp only [hc, ih]
        rfl
      · intro d ds e
        exact absurd e hne

theorem firm_regexLiteral : Firm never regexLiteral := by
  apply firm_seq_never (firm_char _)
  intro cs a rest tail h _
  obtain ⟨body, close, mid, h1, h2, rfl⟩ := seq_eq_some.mp h
  obtain ⟨d, e, mid', h3, h4, rfl⟩ := seq_eq_some.mp h2
  obtain ⟨rfl, -⟩ := char_eq_some.mp h3
  cases h4
  have hinside : regexInside (body ++ '/' :: tail) = some (body, '/' :: tail) := by
    unfold regexInside at h1 ⊢
    have hagain := regexBody_again cs tail
    split at h1
    · cases h1
    · next body' rest' hne heq =>
      cases h1
      rw [heq] at hagain
      rw [hagain]
      split
      · next hnil => exact absurd (congrArg Prod.fst hnil) (by simpa using hne)
      · next hsome => rw [hsome]
  rw [List.append_nil, List.append_assoc, List.singleton_append]
  exact seq_eq_some.mpr ⟨body, ['/'], '/' :: tail, hinside,
    seq_eq_some.mpr ⟨['/'], [], tail, char_eq_some.mpr ⟨rfl, rfl⟩, rfl, rfl⟩, rfl⟩

/-! ### Dates and times of day -/

/-- The characters of comparison operators. -/
def comparisonChar (c : Char) : Bool := c == '>' || c == '<' || c == '='

/-- The characters that can go on a date or a time of day. -/
def goesOn (c : Char) : Bool := c.isDigit || c == ':' || c == '.' || c == 'Z' || c == '+' || c == '-'

theorem chars_eq_some {word cs a rest : List Char} (h : chars word cs = some (a, rest)) :
    a = word := by
  induction word generalizing cs a with
  | nil =>
      cases h
      rfl
  | cons c word ih =>
      obtain ⟨b, d, mid, h1, h2, rfl⟩ := seq_eq_some.mp h
      rw [(char_eq_some.mp h1).1, ih h2, List.singleton_append]

theorem comparison_eq_some {cs a rest : List Char} (h : comparison cs = some (a, rest)) :
    cs = a ++ rest ∧ a ∈ [['>', '='], ['<', '='], ['>'], ['<'], []] := by
  refine ⟨Token.exact_comparison _ _ _ h, ?_⟩
  simp only [comparison, optional, Option.or_eq_some_iff, Option.some.injEq, Prod.mk.injEq] at h
  rcases h with h | ⟨-, rfl, -⟩
  · obtain ⟨r, hr, h⟩ := choice_eq_some h
    simp only [List.mem_cons, List.not_mem_nil, or_false] at hr
    rcases hr with rfl | rfl | rfl | rfl
    · simp [chars_eq_some h]
    · simp [chars_eq_some h]
    · simp [(char_eq_some.mp h).1]
    · simp [(char_eq_some.mp h).1]
  · simp

theorem firm_comparison : Firm comparisonChar comparison := by
  intro cs a rest tail h htail
  obtain ⟨-, ha⟩ := comparison_eq_some h
  cases tail with
  | nil =>
      simp only [List.mem_cons, List.not_mem_nil, or_false] at ha
      rcases ha with rfl | rfl | rfl | rfl | rfl <;> rfl
  | cons c tail =>
      have hc : comparisonChar c = false := htail c rfl
      simp only [comparisonChar, Bool.or_eq_false_iff, beq_eq_false_iff_ne] at hc
      simp only [List.mem_cons, List.not_mem_nil, or_false] at ha
      rcases ha with rfl | rfl | rfl | rfl | rfl <;>
        simp [comparison, optional, choice, chars, chain, seq, char, one, nothing, hc]

theorem firm_calendarDate : Firm never calendarDate := by
  apply firm_chain_never
  simp only [List.mem_cons, List.not_mem_nil, or_false]
  rintro r (rfl | rfl | rfl | rfl | rfl)
  · exact firm_digits 4
  · exact firm_char _
  · exact firm_digits 2
  · exact firm_char _
  · exact firm_digits 2

theorem firm_fraction : Firm Char.isDigit (chain [char '.', run1 Char.isDigit]) :=
  firm_seq_never (firm_char _) (firm_chain_single (firm_seq_never (firm_one _) (firm_run _)))

theorem firm_seconds : Firm (fun c => c.isDigit || c == '.') seconds := by
  apply firm_seq_never (firm_char _)
  apply firm_seq_never (firm_digits 2)
  apply firm_chain_single
  apply firm_optional firm_fraction
  · exact ((needs_char '.').seq _).mono (by simp +contextual)
  · simp +contextual

theorem firm_clock : Firm (fun c => c.isDigit || c == '.' || c == ':') clock := by
  apply firm_seq_never (firm_digits 2)
  apply firm_seq_never (firm_char _)
  apply firm_seq_never (firm_digits 2)
  apply firm_chain_single
  apply firm_optional firm_seconds
  · exact ((needs_char ':').seq _).mono (by simp +contextual)
  · simp +contextual

theorem beq_of_isDigit {d : Char} (hd : d.isDigit = false) (c : Char) (hc : c.isDigit = true) :
    (c == d) = false := by
  rw [beq_eq_false_iff_ne]
  rintro rfl
  rw [hc] at hd
  cases hd

theorem comparisonChar_of_isDigit (c : Char) (hc : c.isDigit = true) : comparisonChar c = false := by
  rw [comparisonChar, beq_of_isDigit rfl c hc, beq_of_isDigit rfl c hc, beq_of_isDigit rfl c hc]
  rfl

/-- A signed offset. -/
abbrev signedOffset : Reader :=
  chain [one fun c => c == '+' || c == '-', digits 2, optional (char ':'), digits 2]

theorem zone_eq (cs : List Char) : zone cs = (char 'Z' cs).or (signedOffset cs) := by
  simp only [zone, choice, Option.or_none]

theorem firm_signedOffset : Firm never signedOffset := by
  have hcolon : Firm (· == ':') (optional (char ':')) :=
    firm_optional (firm_char _) (needs_char ':') fun _ h => h
  apply firm_seq_never (firm_one _)
  apply firm_seq_never (firm_digits 2)
  apply firm_seq hcolon (firm_chain_single (firm_digits 2))
  · exact avoids_chain_single (avoids_digits (beq_of_isDigit rfl) 1)
  · exact progress_seq_left (progress_digits 1)

theorem firm_zone : Firm never zone := by
  intro cs a rest tail h htail
  obtain ⟨r, hr, h⟩ := choice_eq_some h
  simp only [List.mem_cons, List.not_mem_nil, or_false] at hr
  rcases hr with rfl | rfl
  · obtain ⟨rfl, -⟩ := char_eq_some.mp h
    rfl
  · -- an offset does not start with `Z`, so the first alternative refuses it
    have hz : char 'Z' (a ++ tail) = none := by
      obtain ⟨b, c, mid, h1, h2, rfl⟩ := seq_eq_some.mp h
      have hsign : Avoids (· == 'Z') (one fun c => c == '+' || c == '-') :=
        avoids_one (by rintro c hc; simp at hc; rcases hc with rfl | rfl <;> rfl)
      obtain ⟨d, ds, hb⟩ := List.exists_cons_of_ne_nil (progress_one _ _ _ _ h1)
      have hd := hsign _ _ _ h1 d (by rw [hb]; rfl)
      rw [hb]
      exact needs_char 'Z' _ (by simpa using hd)
    rw [zone_eq, hz, firm_signedOffset _ _ _ tail h htail]
    rfl

theorem avoids_zone : Avoids (fun c => c.isDigit || c == '.' || c == ':') zone := by
  apply avoids_choice
  simp only [List.mem_cons, List.not_mem_nil, or_false]
  rintro r (rfl | rfl)
  · exact avoids_char rfl
  · apply Avoids.seq _ (progress_one _)
    apply avoids_one
    intro c hc
    simp only [Bool.or_eq_true, beq_iff_eq] at hc
    rcases hc with rfl | rfl <;> rfl

theorem needs_zone : Needs (fun c => c == 'Z' || c == '+' || c == '-') zone := by
  intro cs h
  have hz : char 'Z' cs = none := needs_char 'Z' cs fun c hc => by
    have := h c hc
    simp only [Bool.or_eq_false_iff] at this
    exact this.1.1
  have hsign : one (fun c => c == '+' || c == '-') cs = none := needs_one _ cs fun c hc => by
    have := h c hc
    simp only [Bool.or_eq_false_iff] at this
    simp only [this, Bool.or_self]
  rw [zone_eq, hz, signedOffset, chain, seq, hsign]
  rfl

theorem firm_dateTime : Firm goesOn dateTime := by
  have hzone : Firm (fun c => c == 'Z' || c == '+' || c == '-') (chain [optional zone]) :=
    firm_chain_single (firm_optional firm_zone needs_zone fun _ _ => rfl)
  have hclock : Firm goesOn (chain [clock, optional zone]) := by
    refine firm_seq_optional firm_clock (hzone.mono ?_) ?_ ?_
    · simp +contextual [goesOn]
    · exact avoids_chain_single (avoids_optional avoids_zone)
    · simp +contextual [goesOn]
  have hdate : Avoids comparisonChar calendarDate :=
    (avoids_digits comparisonChar_of_isDigit 3).seq (progress_digits 3) _
  have hprogress : Progress calendarDate := progress_seq_left (progress_digits 3)
  apply firm_seq firm_comparison
  · apply firm_seq_never firm_calendarDate
    exact firm_seq_never (firm_one _) hclock
  · exact hdate.seq hprogress _
  · exact progress_seq_left hprogress

theorem firm_timeOfDay : Firm goesOn timeOfDay := by
  have hend : Firm goesOn (chain [optional (chain [char ':', digits 2])]) := by
    refine firm_chain_single (firm_optional (firm_chain_never ?_) ?_ fun _ _ => rfl)
    · simp only [List.mem_cons, List.not_mem_nil, or_false]
      rintro r (rfl | rfl)
      · exact firm_char _
      · exact firm_digits 2
    · exact ((needs_char ':').seq _).mono (by simp +contextual [goesOn])
  have hminutes : Firm goesOn (chain [char ':', digits 2, optional (chain [char ':', digits 2])]) :=
    firm_seq_never (firm_char _) (firm_seq_never (firm_digits 2) hend)
  have hhours : Firm Char.isDigit (optional digit) :=
    firm_optional (firm_one _) (needs_one _) fun _ h => h
  have hdigit : Avoids comparisonChar digit :=
    avoids_one comparisonChar_of_isDigit
  apply firm_seq firm_comparison
  · apply firm_seq_never (firm_one _)
    apply firm_seq hhours hminutes
    · exact (avoids_char rfl).seq (progress_char _) _
    · exact progress_seq_left (progress_char _)
  · exact hdigit.seq progress_digit _
  · exact progress_seq_left progress_digit

end Reader

/-- The reader of a literal takes again what it took. -/
theorem LiteralForm.firm_reader (form : LiteralForm) : Reader.Firm Reader.goesOn form.reader := by
  cases form
  · exact Reader.firm_bracketed.mono fun _ _ => rfl
  · exact Reader.firm_dateTime
  · exact Reader.firm_timeOfDay
  · exact Reader.firm_regexLiteral.mono fun _ _ => rfl

end QueryFilter
