import QueryFilter.Token.Scan

/-! # Tokens in front of a closing parenthesis

A text that can be cut into tokens is cut into the same tokens when a closing parenthesis and
anything at all come after it (`scan_append_closeParen`).  There are two reasons for it.

* Readers of words, dates and times stop at a character that they cannot take, just as they stop at
  the end of the text.  `Reader.Stops x r` says so of a reader `r` and a character `x`; it is
  preserved by the combinators.
* Readers of phrases, ranges and regular expressions take a closing parenthesis for one of their
  own characters, but they have found their closing mark before they come to it
  (`Reader.Extends`).

`read?_of_not_opening` and the equations before it say which readers are to be asked, by the first
character of a text. -/

namespace QueryFilter

/-! ### Readers that stop at a character -/

namespace Reader

variable {α β : Type}

/-- The reader takes `x` and what follows it for the end of the text. -/
def Stops (x : Char) (r : List Char → Option (α × List Char)) : Prop :=
  ∀ cs tail, r (cs ++ x :: tail) = (r cs).map fun (a, rest) => (a, rest ++ x :: tail)

/-- What the reader accepts, it accepts with any text after it. -/
def Extends (r : List Char → Option (α × List Char)) : Prop :=
  ∀ cs a rest tail, r cs = some (a, rest) → r (cs ++ tail) = some (a, rest ++ tail)

/-- The reader that stopped before a `c` stops there whatever comes after it. -/
def SettlesAt (c : Char) (r : Reader) : Prop :=
  ∀ cs a rest tail, r cs = some (a, c :: rest) → r (cs ++ tail) = some (a, c :: rest ++ tail)

section stops
variable {x : Char}

theorem stops_map {r : List Char → Option (α × List Char)} (hr : Stops x r) (f : α → β) :
    Stops x fun cs => (r cs).map fun (a, rest) => (f a, rest) := by
  intro cs tail
  dsimp only
  rw [hr cs tail]
  cases r cs <;> rfl

theorem stops_or {r s : List Char → Option (α × List Char)} (hr : Stops x r) (hs : Stops x s) :
    Stops x fun cs => (r cs).or (s cs) := by
  intro cs tail
  dsimp only
  rw [hr cs tail, hs cs tail]
  cases r cs <;> rfl

theorem stops_nothing : Stops x nothing := fun _ _ => rfl

theorem stops_one {p : Char → Bool} (hx : p x = false) : Stops x (one p) := by
  intro cs tail
  cases cs with
  | nil => simp [one, hx]
  | cons c cs =>
      simp only [List.cons_append, one]
      split <;> rfl

theorem stops_run {p : Char → Bool} (hx : p x = false) : Stops x (run p) := by
  intro cs tail
  simp only [run, Option.map_some, Option.some.injEq, Prod.mk.injEq]
  induction cs with
  | nil => simp [hx]
  | cons c cs ih =>
      simp only [List.cons_append, List.takeWhile_cons, List.dropWhile_cons]
      cases p c with
      | false => simp
      | true => exact ⟨congrArg (c :: ·) ih.1, ih.2⟩

theorem stops_seq {r s : Reader} (hr : Stops x r) (hs : Stops x s) : Stops x (seq r s) := by
  intro cs tail
  unfold seq
  rw [hr cs tail]
  cases r cs with
  | none => rfl
  | some p =>
      obtain ⟨a, mid⟩ := p
      simp only [Option.map_some]
      rw [hs mid tail]
      cases s mid with
      | none => rfl
      | some q => rfl

theorem stops_chain {rs : List Reader} (h : ∀ r ∈ rs, Stops x r) : Stops x (chain rs) := by
  induction rs with
  | nil => exact stops_nothing
  | cons r rs ih => exact stops_seq (h r (by simp)) (ih fun s hs => h s (by simp [hs]))

theorem stops_choice {rs : List Reader} (h : ∀ r ∈ rs, Stops x r) : Stops x (choice rs) := by
  induction rs with
  | nil => exact fun _ _ => rfl
  | cons r rs ih => exact stops_or (h r (by simp)) (ih fun s hs => h s (by simp [hs]))

theorem stops_optional {r : Reader} (hr : Stops x r) : Stops x (optional r) := by
  intro cs tail
  unfold optional
  rw [hr cs tail]
  cases r cs <;> rfl

theorem stops_char {c : Char} (hx : x ≠ c) : Stops x (char c) := stops_one (by simpa using hx)

theorem stops_chars {word : List Char} (hx : x ∉ word) : Stops x (chars word) := by
  apply stops_chain
  simp only [List.mem_map]
  rintro r ⟨c, hc, rfl⟩
  exact stops_char fun e => hx (e ▸ hc)

theorem stops_digits (hx : x.isDigit = false) (n : Nat) : Stops x (digits n) := by
  apply stops_chain
  intro r hr
  rw [List.eq_of_mem_replicate hr]
  exact stops_one hx

theorem stops_run1 {p : Char → Bool} (hx : p x = false) : Stops x (run1 p) :=
  stops_seq (stops_one hx) (stops_run hx)

end stops

/-! ### The shapes without a closing mark -/

/-- No date and no time of day has the character in it, except between date and time. -/
def isTimeless (x : Char) : Bool :=
  !(x.isDigit || [':', '-', '+', '.', 'Z', '>', '<', '='].contains x)

section timeless
variable {x : Char} (hx : isTimeless x = true)
include hx

theorem isDigit_of_isTimeless : x.isDigit = false := by
  simp only [isTimeless, Bool.not_eq_true', Bool.or_eq_false_iff] at hx
  exact hx.1

theorem ne_of_isTimeless {c : Char} (hc : isTimeless c = false) : x ≠ c := by
  rintro rfl
  rw [hx] at hc
  cases hc

theorem stops_comparison : Stops x comparison := by
  have hne : ∀ {c}, isTimeless c = false → x ≠ c := ne_of_isTimeless hx
  apply stops_optional
  apply stops_choice
  simp only [List.mem_cons, List.not_mem_nil, or_false]
  rintro r (rfl | rfl | rfl | rfl)
  · exact stops_chars (by simp [hne (c := '>') rfl, hne (c := '=') rfl])
  · exact stops_chars (by simp [hne (c := '<') rfl, hne (c := '=') rfl])
  · exact stops_char (hne rfl)
  · exact stops_char (hne rfl)

theorem stops_calendarDate : Stops x calendarDate := by
  apply stops_chain
  simp only [List.mem_cons, List.not_mem_nil, or_false]
  rintro r (rfl | rfl | rfl | rfl | rfl)
  · exact stops_digits (isDigit_of_isTimeless hx) _
  · exact stops_char (ne_of_isTimeless hx rfl)
  · exact stops_digits (isDigit_of_isTimeless hx) _
  · exact stops_char (ne_of_isTimeless hx rfl)
  · exact stops_digits (isDigit_of_isTimeless hx) _

theorem stops_seconds : Stops x seconds := by
  apply stops_chain
  simp only [List.mem_cons, List.not_mem_nil, or_false]
  rintro r (rfl | rfl | rfl)
  · exact stops_char (ne_of_isTimeless hx rfl)
  · exact stops_digits (isDigit_of_isTimeless hx) _
  · apply stops_optional
    apply stops_chain
    simp only [List.mem_cons, List.not_mem_nil, or_false]
    rintro r (rfl | rfl)
    · exact stops_char (ne_of_isTimeless hx rfl)
    · exact stops_run1 (isDigit_of_isTimeless hx)

theorem stops_clock : Stops x clock := by
  apply stops_chain
  simp only [List.mem_cons, List.not_mem_nil, or_false]
  rintro r (rfl | rfl | rfl | rfl)
  · exact stops_digits (isDigit_of_isTimeless hx) _
  · exact stops_char (ne_of_isTimeless hx rfl)
  · exact stops_digits (isDigit_of_isTimeless hx) _
  · exact stops_optional (stops_seconds hx)

theorem stops_zone : Stops x zone := by
  have hsign : (x == '+' || x == '-') = false := by
    simp [ne_of_isTimeless hx (c := '+') rfl, ne_of_isTimeless hx (c := '-') rfl]
  apply stops_choice
  simp only [List.mem_cons, List.not_mem_nil, or_false]
  rintro r (rfl | rfl)
  · exact stops_char (ne_of_isTimeless hx rfl)
  · apply stops_chain
    simp only [List.mem_cons, List.not_mem_nil, or_false]
    rintro r (rfl | rfl | rfl | rfl)
    · exact stops_one hsign
    · exact stops_digits (isDigit_of_isTimeless hx) _
    · exact stops_optional (stops_char (ne_of_isTimeless hx rfl))
    · exact stops_digits (isDigit_of_isTimeless hx) _

theorem stops_timeOfDay : Stops x timeOfDay := by
  apply stops_chain
  simp only [List.mem_cons, List.not_mem_nil, or_false]
  rintro r (rfl | rfl | rfl | rfl | rfl | rfl)
  · exact stops_comparison hx
  · exact stops_one (isDigit_of_isTimeless hx)
  · exact stops_optional (stops_one (isDigit_of_isTimeless hx))
  · exact stops_char (ne_of_isTimeless hx rfl)
  · exact stops_digits (isDigit_of_isTimeless hx) _
  · apply stops_optional
    apply stops_chain
    simp only [List.mem_cons, List.not_mem_nil, or_false]
    rintro r (rfl | rfl)
    · exact stops_char (ne_of_isTimeless hx rfl)
    · exact stops_digits (isDigit_of_isTimeless hx) _

theorem stops_dateTime (hsep : (x == 'T' || x == ' ') = false) : Stops x dateTime := by
  apply stops_chain
  simp only [List.mem_cons, List.not_mem_nil, or_false]
  rintro r (rfl | rfl | rfl | rfl | rfl)
  · exact stops_comparison hx
  · exact stops_calendarDate hx
  · exact stops_one hsep
  · exact stops_clock hx
  · exact stops_optional (stops_zone hx)

end timeless

theorem stops_wordRun : Stops ')' wordRun :=
  stops_seq (stops_one (by decide)) (stops_run (by decide))

/-! ### The shapes with a closing mark -/

theorem extends_map {r : List Char → Option (α × List Char)} (hr : Extends r) (f : α → β) :
    Extends fun cs => (r cs).map fun (a, rest) => (f a, rest) := by
  intro cs b rest tail h
  simp only [Option.map_eq_some_iff, Prod.mk.injEq, Prod.exists] at h
  obtain ⟨a, rest', h1, rfl, rfl⟩ := h
  dsimp only
  rw [hr _ _ _ tail h1]
  rfl

theorem extends_char (c : Char) : Extends (char c) := by
  intro cs a rest tail h
  obtain ⟨rfl, rfl⟩ := char_eq_some.mp h
  exact char_eq_some.mpr ⟨rfl, rfl⟩

theorem extends_seq {r s : Reader} (hr : Extends r) (hs : Extends s) : Extends (seq r s) := by
  intro cs a rest tail h
  obtain ⟨b, c, mid, h1, h2, rfl⟩ := seq_eq_some.mp h
  exact seq_eq_some.mpr ⟨b, c, mid ++ tail, hr _ _ _ _ h1, hs _ _ _ _ h2, rfl⟩

/-- A reader that settles at its closing mark, and then the mark. -/
theorem extends_seq_char {c : Char} {r : Reader} (hr : SettlesAt c r) :
    Extends (chain [r, char c]) := by
  intro cs a rest tail h
  obtain ⟨b, d, mid, h1, h2, rfl⟩ := seq_eq_some.mp h
  obtain ⟨d, e, mid', h3, h4, rfl⟩ := seq_eq_some.mp h2
  obtain ⟨rfl, rfl⟩ := char_eq_some.mp h3
  simp only [chain, nothing, Option.some.injEq, Prod.mk.injEq] at h4
  obtain ⟨rfl, rfl⟩ := h4
  have hmark : chain [char c] (c :: mid' ++ tail) = some ([c], mid' ++ tail) :=
    seq_eq_some.mpr ⟨[c], [], mid' ++ tail, char_eq_some.mpr ⟨rfl, rfl⟩, rfl, rfl⟩
  exact seq_eq_some.mpr ⟨b, [c], c :: mid' ++ tail, hr _ _ _ _ h1, hmark, rfl⟩

theorem settlesAt_run (c : Char) (p : Char → Bool) : SettlesAt c (run p) := by
  intro cs a rest tail h
  simp only [run, Option.some.injEq, Prod.mk.injEq] at h ⊢
  obtain ⟨h1, h2⟩ := h
  have hshort : (cs.takeWhile p).length ≠ cs.length := by
    have hlen := congrArg List.length (List.takeWhile_append_dropWhile (p := p) (l := cs))
    rw [h2, List.length_append, List.length_cons] at hlen
    omega
  rw [List.takeWhile_append, if_neg hshort, List.dropWhile_append, h2, h1]
  simp

theorem extends_bracketed : Extends bracketed :=
  extends_seq (extends_char '[') (extends_seq_char (settlesAt_run ']' _))

theorem regexBody_append_slash {cs body rest : List Char} (tail : List Char)
    (h : regexBody cs = (body, '/' :: rest)) :
    regexBody (cs ++ tail) = (body, '/' :: rest ++ tail) := by
  fun_induction regexBody cs generalizing body with
  | case1 => simp at h
  | case2 c cs body' rest' heq ih =>
      simp only [Prod.mk.injEq] at h
      have := ih (heq.trans (by rw [h.2]))
      simp [regexBody, this, h.1]
  | case3 c cs hesc hc =>
      simp only [Prod.mk.injEq, List.cons.injEq] at h
      obtain ⟨rfl, rfl, rfl⟩ := h
      rfl
  | case4 c cs hesc hc body' rest' heq ih =>
      simp only [Prod.mk.injEq] at h
      have hrec := ih (heq.trans (by rw [h.2]))
      have hne : c ≠ '\\' := by
        rintro rfl
        simp at hc
      rw [List.cons_append, regexBody]
      · simp [hc, hrec, h.1]
      · intro d ds e
        exact absurd e hne

theorem settlesAt_regexInside : SettlesAt '/' regexInside := by
  intro cs a rest tail h
  unfold regexInside at h
  split at h
  · simp at h
  · next body rest' hne heq =>
    simp only [Option.some.injEq, Prod.mk.injEq] at h
    obtain ⟨rfl, rfl⟩ := h
    unfold regexInside
    rw [regexBody_append_slash tail heq]
    split
    · next heq' => exact absurd (congrArg Prod.fst heq') (by simpa using hne)
    · next heq' =>
      simp only [Prod.mk.injEq] at heq'
      rw [heq'.1, heq'.2]

theorem extends_regexLiteral : Extends regexLiteral :=
  extends_seq (extends_char '/') (extends_seq_char settlesAt_regexInside)

theorem extends_phrase (mark : Char) : Extends (phrase mark) := by
  intro cs a rest tail h
  cases cs with
  | nil => simp [phrase] at h
  | cons c cs =>
      simp only [phrase] at h
      split at h
      · next hc =>
        split at h
        · simp at h
        · next d rest' hd =>
          simp only [Option.some.injEq, Prod.mk.injEq] at h
          obtain ⟨rfl, rfl⟩ := h
          have hrun := settlesAt_run d (· != mark) cs _ rest' tail (by rw [run, hd])
          simp only [run, Option.some.injEq, Prod.mk.injEq] at hrun
          simp [phrase, hc, hrun.1, hrun.2]
      · simp at h

end Reader

/-! ### Which readers to ask -/

namespace Token

theorem findSome?_cons_eq_or {α β : Type} (f : α → Option β) (a : α) (l : List α) :
    (a :: l).findSome? f = (f a).or (l.findSome? f) := by
  cases h : f a <;> simp [h]

theorem read?_eq_or (cs : List Char) :
    read? cs =
      (readSymbol '(' .openParen cs).or ((readSymbol ')' .closeParen cs).or
        ((readQuoted .double cs).or ((readQuoted .single cs).or
          ((readLiteral .bracketed cs).or ((readLiteral .regex cs).or
            ((readLiteral .dateTime cs).or ((readLiteral .time cs).or
              ((readSymbol ':' .colon cs).or (readWord cs))))))))) := by
  simp only [read?, readers, findSome?_cons_eq_or, List.findSome?_nil, Option.or_none]

theorem read?_doubleQuote (cs : List Char) :
    read? ('"' :: cs) = readQuoted .double ('"' :: cs) := by
  rw [read?_eq_or]
  exact Option.or_none ..

theorem read?_singleQuote (cs : List Char) :
    read? ('\'' :: cs) = readQuoted .single ('\'' :: cs) := by
  rw [read?_eq_or]
  exact Option.or_none ..

theorem read?_openBracket (cs : List Char) :
    read? ('[' :: cs) = readLiteral .bracketed ('[' :: cs) := by
  rw [read?_eq_or]
  exact Option.or_none ..

theorem read?_slash (cs : List Char) : read? ('/' :: cs) = readLiteral .regex ('/' :: cs) := by
  rw [read?_eq_or]
  exact Option.or_none ..

theorem readSymbol_cons_of_ne {c d : Char} (h : c ≠ d) (token : Token) (cs : List Char) :
    readSymbol d token (c :: cs) = none := by
  simp [readSymbol, Reader.char, Reader.one, h]

theorem readQuoted_cons_of_ne {c : Char} (quote : Quote) (h : c ≠ quote.mark) (cs : List Char) :
    readQuoted quote (c :: cs) = none := by
  simp [readQuoted, phrase, h]

theorem seq_char_cons_of_ne {c d : Char} (h : c ≠ d) (r : Reader) (cs : List Char) :
    Reader.seq (Reader.char d) r (c :: cs) = none := by
  simp [Reader.seq, Reader.char, Reader.one, h]

/-- The characters that alone decide which reader is asked. -/
def isOpening (c : Char) : Bool := ['(', ')', '"', '\'', '[', '/'].contains c

/-- A date, a time of day, a colon or a word. -/
def readPlain (cs : List Char) : Option (Token × List Char) :=
  (readLiteral .dateTime cs).or ((readLiteral .time cs).or
    ((readSymbol ':' .colon cs).or (readWord cs)))

theorem read?_of_not_opening {c : Char} (hc : isOpening c = false) (cs : List Char) :
    read? (c :: cs) = readPlain (c :: cs) := by
  simp only [isOpening, List.contains_eq_mem, List.mem_cons, List.not_mem_nil, or_false,
    decide_eq_false_iff_not, not_or] at hc
  obtain ⟨h1, h2, h3, h4, h5, h6⟩ := hc
  have hbracketed : readLiteral .bracketed (c :: cs) = none := by
    rw [readLiteral, LiteralForm.reader, Reader.bracketed, Reader.chain, seq_char_cons_of_ne h5]
    rfl
  have hregex : readLiteral .regex (c :: cs) = none := by
    rw [readLiteral, LiteralForm.reader, Reader.regexLiteral, Reader.chain, seq_char_cons_of_ne h6]
    rfl
  rw [read?_eq_or, readSymbol_cons_of_ne h1, readSymbol_cons_of_ne h2,
    readQuoted_cons_of_ne .double h3, readQuoted_cons_of_ne .single h4, hbracketed, hregex]
  rfl

/-! ### Reading past the end of a text -/

theorem stops_readLiteral (form : LiteralForm) (h : Reader.Stops ')' form.reader) :
    Reader.Stops ')' (readLiteral form) :=
  Reader.stops_map h fun text => Token.literal form (String.ofList text)

theorem stops_readColon : Reader.Stops ')' (readSymbol ':' .colon) :=
  Reader.stops_map (Reader.stops_char (c := ':') (by decide)) fun _ => Token.colon

theorem stops_readWord : Reader.Stops ')' readWord :=
  Reader.stops_map Reader.stops_wordRun fun text => ofWord (String.ofList text)

theorem stops_readPlain : Reader.Stops ')' readPlain := by
  apply Reader.stops_or (stops_readLiteral .dateTime (Reader.stops_dateTime rfl rfl))
  apply Reader.stops_or (stops_readLiteral .time (Reader.stops_timeOfDay rfl))
  exact Reader.stops_or stops_readColon stops_readWord

theorem extends_readQuoted (quote : Quote) : Reader.Extends (readQuoted quote) :=
  Reader.extends_map (Reader.extends_phrase quote.mark) fun inside =>
    Token.quoted quote (String.ofList inside)

theorem extends_readLiteral (form : LiteralForm) (h : Reader.Extends form.reader) :
    Reader.Extends (readLiteral form) :=
  Reader.extends_map h fun text => Token.literal form (String.ofList text)

/-- The token that a text starts with stays the same when a closing parenthesis comes after it. -/
theorem read?_append_closeParen {cs rest : List Char} {token : Token}
    (h : read? cs = some (token, rest)) (tail : List Char) :
    read? (cs ++ ')' :: tail) = some (token, rest ++ ')' :: tail) := by
  cases cs with
  | nil =>
      have hnone : read? [] = none := rfl
      rw [hnone] at h
      cases h
  | cons c cs =>
      rw [List.cons_append]
      -- Shapes with a closing mark end there, all others stop at the parenthesis.
      cases hc : isOpening c with
      | true =>
          simp only [isOpening, List.contains_eq_mem, List.mem_cons, List.not_mem_nil, or_false,
            decide_eq_true_eq] at hc
          rcases hc with rfl | rfl | rfl | rfl | rfl | rfl
          · cases h
            rfl
          · cases h
            rfl
          · rw [read?_doubleQuote] at h ⊢
            exact extends_readQuoted .double _ _ _ _ h
          · rw [read?_singleQuote] at h ⊢
            exact extends_readQuoted .single _ _ _ _ h
          · rw [read?_openBracket] at h ⊢
            exact extends_readLiteral .bracketed Reader.extends_bracketed _ _ _ _ h
          · rw [read?_slash] at h ⊢
            exact extends_readLiteral .regex Reader.extends_regexLiteral _ _ _ _ h
      | false =>
          rw [read?_of_not_opening hc] at h ⊢
          have hstop := stops_readPlain (c :: cs) tail
          rw [h] at hstop
          exact hstop

/-! ### Scanning past the end of a text -/

theorem trimStart_append_closeParen (cs tail : List Char) :
    trimStart (cs ++ ')' :: tail) = trimStart cs ++ ')' :: tail := by
  have hblank : isBlank ')' = false := by decide
  unfold trimStart
  rw [List.dropWhile_append]
  split
  · next h => simp [List.isEmpty_iff.mp h, hblank]
  · rfl

/-- The tokens of a text, one after the other. -/
theorem scan_eq (cs : List Char) :
    scan cs =
      match trimStart cs with
      | [] => .ok []
      | c :: tail =>
        match read? (c :: tail) with
        | none => .error (malformed c tail)
        | some (token, rest) => (scan rest).map (token :: ·) := by
  fun_cases scan cs with
  | case1 hblank => rw [hblank]
  | case2 c tail hblank hread => simp only [hblank, hread]
  | case3 c tail hblank token rest hread _ e hrest =>
      simp only [hblank, hread, hrest]
      rfl
  | case4 c tail hblank token rest hread _ tokens hrest =>
      simp only [hblank, hread, hrest]
      rfl

theorem scan_of_read? {cs rest : List Char} {token : Token}
    (h : read? (trimStart cs) = some (token, rest)) :
    scan cs = (scan rest).map (token :: ·) := by
  rw [scan_eq]
  cases hblank : trimStart cs with
  | nil => rw [hblank] at h; cases h
  | cons c tail =>
      rw [hblank] at h
      simp only [h]

theorem scan_cons_blank {c : Char} (hc : isBlank c = true) (cs : List Char) :
    scan (c :: cs) = scan cs := by
  rw [scan_eq, scan_eq cs, trimStart_cons, if_pos hc]

/-- **Scanning in front of a closing parenthesis**: the tokens of a text, the parenthesis, and the
tokens of what comes after it. -/
theorem scan_append_closeParen {cs : List Char} {tokens : List Token} (h : scan cs = .ok tokens)
    (tail : List Char) :
    scan (cs ++ ')' :: tail) = (scan tail).map fun more => tokens ++ .closeParen :: more := by
  fun_induction scan cs generalizing tokens with
  | case1 cs hblank =>
      cases h
      have hparen : read? (trimStart (cs ++ ')' :: tail)) = some (.closeParen, tail) := by
        rw [trimStart_append_closeParen, hblank]
        rfl
      exact scan_of_read? hparen
  | case2 => cases h
  | case3 => cases h
  | case4 cs c tail' hblank token rest hread hlen more hmore ih =>
      cases h
      have hnext : read? (trimStart (cs ++ ')' :: tail)) = some (token, rest ++ ')' :: tail) := by
        rw [trimStart_append_closeParen, hblank]
        exact read?_append_closeParen hread tail
      rw [scan_of_read? hnext, ih hmore]
      cases scan tail <;> rfl

end Token

end QueryFilter
