/-! # Blank characters

A character is blank when it has the Unicode property `White_Space`.  Blanks separate the words of
a query and are trimmed off the bounds of ranges and comparisons.  Texts are handled as lists of
characters; `trim` cuts blanks at both ends. -/

namespace QueryFilter

/-- The code points of the blank characters, as closed ranges in ascending order. -/
def blankRanges : List (Nat × Nat) :=
  [(0x09, 0x0D), (0x20, 0x20), (0x85, 0x85), (0xA0, 0xA0), (0x1680, 0x1680), (0x2000, 0x200A),
   (0x2028, 0x2029), (0x202F, 0x202F), (0x205F, 0x205F), (0x3000, 0x3000)]

/-- Does the code point lie in one of the closed ranges? -/
def inRanges (ranges : List (Nat × Nat)) (n : Nat) : Bool :=
  ranges.any fun r => decide (r.1 ≤ n) && decide (n ≤ r.2)

/-- The character has the property `White_Space`. -/
def isBlank (c : Char) : Bool := inRanges blankRanges c.toNat

/-- The text without its leading blanks. -/
def trimStart (cs : List Char) : List Char := cs.dropWhile isBlank

/-- The text without its trailing blanks. -/
def trimEnd (cs : List Char) : List Char := (cs.reverse.dropWhile isBlank).reverse

/-- The text without the blanks at its two ends. -/
def trim (cs : List Char) : List Char := trimEnd (trimStart cs)

/-! ### Facts about the table -/

/-- Every character that the core library calls whitespace is blank. -/
theorem isBlank_of_isWhitespace {c : Char} (h : c.isWhitespace = true) : isBlank c = true := by
  simp only [Char.isWhitespace, Bool.or_eq_true, decide_eq_true_eq] at h
  rcases h with ((h | h) | h) | h <;> subst h <;> decide

/-- A character in front of a text is kept by `trimStart` unless it is blank. -/
theorem trimStart_cons (c : Char) (cs : List Char) :
    trimStart (c :: cs) = if isBlank c then trimStart cs else c :: cs := by
  simp [trimStart, List.dropWhile_cons]

theorem length_trimStart_le (cs : List Char) : (trimStart cs).length ≤ cs.length :=
  (List.dropWhile_suffix _).length_le

theorem isBlank_of_trimStart_eq_cons {cs : List Char} {c : Char} {tail : List Char}
    (h : trimStart cs = c :: tail) : isBlank c = false := by
  have := List.head?_dropWhile_not (p := isBlank) (l := cs)
  rw [show cs.dropWhile isBlank = c :: tail from h] at this
  simpa using this

end QueryFilter
