import Mathlib
import QueryFilter.Literal.Resolve
import QueryFilter.Proofs.Text.Offset

/-! # The keyword of a range

The word `TO` between the bounds of a range is looked for in a copy of the text, in upper case and
with a space more at both ends, and the text itself is cut at the offset that is found there.  The
copy has the same number of bytes in front of each of its characters, but for the space in front of
them all, and what is found has a space in front of the word.  So the offset is where the word starts
in the text (`keywordOffset?_eq_some`), no cut can fail, and `splitRange` cuts around the first word
`TO` (`splitRange_keyword`). -/

namespace QueryFilter

open String (utf8Len)

/-! ### Upper case -/

section upper
variable {c t o : Char}

theorem toNat_toUpper (c : Char) :
    c.toUpper.toNat = if 97 ≤ c.toNat ∧ c.toNat ≤ 122 then c.toNat - 32 else c.toNat := by
  have hlower : ('a'.val ≤ c.val ∧ c.val ≤ 'z'.val) ↔ 97 ≤ c.toNat ∧ c.toNat ≤ 122 := by
    rw [UInt32.le_iff_toNat_le, UInt32.le_iff_toNat_le]
    rfl
  rw [Char.toUpper]
  split
  · next h =>
    rw [hlower] at h
    rw [if_pos h]
    change (c.val + ('A'.val - 'a'.val)).toNat = _
    rw [UInt32.toNat_add, Char.toNat_val]
    -- the distance between the cases, below zero
    change (c.toNat + 4294967264) % 4294967296 = _
    omega
  · next h =>
    rw [hlower] at h
    rw [if_neg h]

/-- A letter has as many bytes in upper case. -/
theorem utf8Size_toUpper (c : Char) : c.toUpper.utf8Size = c.utf8Size := by
  by_cases h : 97 ≤ c.toNat ∧ c.toNat ≤ 122
  · have hone {d : Char} (hd : d.toNat ≤ 127) : d.utf8Size = 1 :=
      Char.utf8Size_eq_one_iff.mpr (UInt32.le_iff_toNat_le.mpr hd)
    rw [hone (by rw [toNat_toUpper, if_pos h]; omega), hone (by omega)]
  · rw [Char.toNat_inj.mp ((toNat_toUpper c).trans (if_neg h))]

theorem toUpper_eq_space_iff : c.toUpper = ' ' ↔ c = ' ' := by
  rw [← Char.toNat_inj, ← Char.toNat_inj, toNat_toUpper]
  change _ = 32 ↔ _ = 32
  split <;> omega

/-- The two letters spell the word `TO`, in any case. -/
def SpellsTo (t o : Char) : Prop := (t = 'T' ∨ t = 't') ∧ (o = 'O' ∨ o = 'o')

theorem spellsTo_iff : SpellsTo t o ↔ t.toUpper = 'T' ∧ o.toUpper = 'O' := by
  simp only [SpellsTo, ← Char.toNat_inj, toNat_toUpper]
  change (_ = 84 ∨ _ = 116) ∧ (_ = 79 ∨ _ = 111) ↔ _ = 84 ∧ _ = 79
  split <;> split <;> omega

theorem utf8Len_map_toUpper (cs : List Char) : utf8Len (cs.map Char.toUpper) = utf8Len cs := by
  induction cs with
  | nil => rfl
  | cons c cs ih => rw [List.map_cons, String.utf8Len_cons, String.utf8Len_cons, ih, utf8Size_toUpper]

end upper

/-! ### The keyword -/

/-- The text is cut around a word `TO`, in any case: on either side of it is a space or an end of the
text. -/
structure IsKeywordSplit (text before after : List Char) : Prop where
  spelled : ∃ t o, text = before ++ t :: o :: after ∧ SpellsTo t o
  before_word : before = [] ∨ before.getLast? = some ' '
  after_word : after = [] ∨ after.head? = some ' '

/-- The text is cut around the first word `TO`. -/
structure IsFirstKeywordSplit (text before after : List Char) : Prop
    extends IsKeywordSplit text before after where
  first : ∀ before' after', IsKeywordSplit text before' after' → before.length ≤ before'.length

section keyword
variable {text front back before after : List Char}

theorem exists_front_iff :
    (∃ front, ' ' :: before.map Char.toUpper = front ++ [' ']) ↔
      before = [] ∨ before.getLast? = some ' ' := by
  rw [← List.getLast?_eq_some_iff, List.getLast?_cons, List.getLast?_map]
  cases h : before.getLast? with
  | none => simp [List.getLast?_eq_none_iff.mp h]
  | some c =>
      have hne : before ≠ [] := by
        rintro rfl
        cases h
      simp [hne, toUpper_eq_space_iff]

theorem exists_back_iff :
    (∃ back, after.map Char.toUpper ++ [' '] = ' ' :: back) ↔
      after = [] ∨ after.head? = some ' ' := by
  cases after with
  | nil => simp
  | cons c after => simp [toUpper_eq_space_iff]

/-- The padding makes room for the space in front of the word, and for the one after it. -/
theorem padded_eq_iff :
    padded text = front ++ rangeKeyword ++ back ↔
      ∃ before t o after, text = before ++ t :: o :: after ∧ SpellsTo t o ∧
        ' ' :: before.map Char.toUpper = front ++ [' '] ∧
        after.map Char.toUpper ++ [' '] = ' ' :: back := by
  have hkeyword : front ++ rangeKeyword ++ back = (front ++ [' ']) ++ 'T' :: 'O' :: ' ' :: back := by
    simp [rangeKeyword]
  rw [padded, hkeyword]
  constructor
  · intro h
    -- The text lies between the two spaces of the padding, so these are cut off both sides first.
    obtain ⟨upperFront, hfront⟩ : ∃ upperFront, front ++ [' '] = ' ' :: upperFront := by
      cases front with
      | nil => exact ⟨[], rfl⟩
      | cons c front => exact ⟨front ++ [' '], by rw [(List.cons.inj h).1]; rfl⟩
    obtain ⟨upperBack, hback⟩ : ∃ upperBack, ' ' :: back = upperBack ++ [' '] := by
      rcases List.eq_nil_or_concat' back with rfl | ⟨more, c, rfl⟩
      · exact ⟨[], rfl⟩
      · have hlast : ' ' :: text.map Char.toUpper ++ [' '] =
            (front ++ [' '] ++ 'T' :: 'O' :: ' ' :: more) ++ [c] := by
          simpa using h
        rw [← (List.append_inj' hlast rfl).2]
        exact ⟨' ' :: more, rfl⟩
    have hpadded : ' ' :: text.map Char.toUpper ++ [' '] =
        ' ' :: (upperFront ++ 'T' :: 'O' :: upperBack) ++ [' '] := by
      rw [hfront, hback] at h
      simpa using h
    have hupper := (List.cons.inj (List.append_cancel_right hpadded)).2
    obtain ⟨before, rest, rfl, hbefore, hrest⟩ := List.map_eq_append_iff.mp hupper
    obtain ⟨t, rest, rfl, ht, hrest⟩ := List.map_eq_cons_iff.mp hrest
    obtain ⟨o, after, rfl, ho, hafter⟩ := List.map_eq_cons_iff.mp hrest
    exact ⟨before, t, o, after, rfl, spellsTo_iff.mpr ⟨ht, ho⟩, by rw [hbefore, hfront],
      by rw [hafter, hback]⟩
  · rintro ⟨before, t, o, after, rfl, hword, hfront, hback⟩
    obtain ⟨ht, ho⟩ := spellsTo_iff.mp hword
    rw [← hfront, ← hback]
    simp [ht, ho]

/-- What is found in the padded text is a word of the text, and has as much in front of it. -/
theorem exists_isKeywordSplit (h : padded text = front ++ rangeKeyword ++ back) :
    ∃ before after, IsKeywordSplit text before after ∧ before.length = front.length ∧
      utf8Len before = utf8Len front := by
  obtain ⟨before, t, o, after, rfl, hword, hfront, hback⟩ := padded_eq_iff.mp h
  have hlength := congrArg List.length hfront
  have hbytes := congrArg utf8Len hfront
  rw [List.length_cons, List.length_map, List.length_append, List.length_singleton] at hlength
  rw [String.utf8Len_cons, utf8Len_map_toUpper, String.utf8Len_append, String.utf8Len_cons,
    String.utf8Len_nil] at hbytes
  exact ⟨before, after, ⟨⟨t, o, rfl, hword⟩, exists_front_iff.mp ⟨front, hfront⟩,
    exists_back_iff.mp ⟨back, hback⟩⟩, by omega, by omega⟩

theorem IsKeywordSplit.exists_padded (h : IsKeywordSplit text before after) :
    ∃ front back, padded text = front ++ rangeKeyword ++ back ∧ front.length = before.length := by
  obtain ⟨⟨t, o, rfl, hword⟩, hbefore, hafter⟩ := h
  obtain ⟨front, hfront⟩ := exists_front_iff.mpr hbefore
  obtain ⟨back, hback⟩ := exists_back_iff.mpr hafter
  refine ⟨front, back, padded_eq_iff.mpr ⟨before, t, o, after, rfl, hword, hfront, hback⟩, ?_⟩
  simpa using (congrArg List.length hfront).symm

theorem IsFirstKeywordSplit.unique {before' after' : List Char}
    (h : IsFirstKeywordSplit text before after) (h' : IsFirstKeywordSplit text before' after') :
    before = before' ∧ after = after' := by
  have hlength := Nat.le_antisymm (h.first _ _ h'.toIsKeywordSplit) (h'.first _ _ h.toIsKeywordSplit)
  obtain ⟨t, o, heq, -⟩ := h.spelled
  obtain ⟨t', o', heq', -⟩ := h'.spelled
  obtain ⟨hbefore, hrest⟩ := List.append_inj (heq.symm.trans heq') hlength
  exact ⟨hbefore, (List.cons.inj (List.cons.inj hrest).2).2⟩

/-- The offset is that of the first word in the text, before it was padded. -/
theorem keywordOffset?_eq_some {start : Nat} (h : keywordOffset? text = some start) :
    ∃ before after, IsFirstKeywordSplit text before after ∧ utf8Len before = start := by
  obtain ⟨front, back, hpadded, rfl, hfirst⟩ := offsetOf?_eq_some h
  obtain ⟨before, after, hsplit, hlength, hbytes⟩ := exists_isKeywordSplit hpadded
  refine ⟨before, after, ⟨hsplit, fun before' after' hsplit' => ?_⟩, hbytes⟩
  obtain ⟨front', back', hpadded', hlength'⟩ := hsplit'.exists_padded
  rw [hlength, ← hlength']
  exact hfirst front' back' hpadded'

theorem IsKeywordSplit.keywordOffset?_ne_none (h : IsKeywordSplit text before after) :
    keywordOffset? text ≠ none := by
  obtain ⟨front, back, hpadded, -⟩ := h.exists_padded
  rw [keywordOffset?, hpadded]
  exact offsetOf?_append_ne_none front rangeKeyword back

/-- The offset is in front of the two letters of the word, and the text can be cut there. -/
theorem IsKeywordSplit.cutAt?_eq (h : IsKeywordSplit text before after) :
    ∃ word, cutAt? (utf8Len before) text = some (before, word ++ after) ∧
      cutAt? (utf8Len before + 2) text = some (before ++ word, after) := by
  obtain ⟨t, o, rfl, hword⟩ := h.spelled
  have hbytes : utf8Len (before ++ [t, o]) = utf8Len before + 2 := by
    obtain ⟨rfl | rfl, rfl | rfl⟩ := hword
    all_goals exact String.utf8Len_append _ _
  have hcut := cutAt?_append (before ++ [t, o]) after
  rw [hbytes, List.append_assoc] at hcut
  exact ⟨[t, o], cutAt?_append before _, hcut⟩

/-- A range is split around the first keyword in it. -/
theorem IsFirstKeywordSplit.splitRange_eq {inside : List Char}
    (h : IsFirstKeywordSplit (trim inside) before after) :
    splitRange inside = some (trim before, trim after) := by
  obtain ⟨start, hstart⟩ := Option.ne_none_iff_exists'.mp h.keywordOffset?_ne_none
  obtain ⟨before', after', hfirst, rfl⟩ := keywordOffset?_eq_some hstart
  obtain ⟨rfl, rfl⟩ := h.unique hfirst
  obtain ⟨word, hbefore, hafter⟩ := h.cutAt?_eq
  rw [splitRange, hstart]
  dsimp only
  rw [hbefore, hafter]

theorem splitRange_eq_none {inside : List Char} (h : keywordOffset? (trim inside) = none) :
    splitRange inside = none := by
  rw [splitRange, h]

end keyword

/-- **A range is split around the first word `TO`, and no cut fails.**  The offset that is found in
the padded text is a boundary of a character of the text, and so is the one two bytes later. -/
theorem splitRange_keyword (inside : List Char) :
    (∀ start, keywordOffset? (trim inside) = some start →
      (String.Pos.Raw.mk start).IsValid (String.ofList (trim inside)) ∧
      (String.Pos.Raw.mk (start + 2)).IsValid (String.ofList (trim inside)) ∧
      start + 2 ≤ (String.ofList (trim inside)).utf8ByteSize ∧
      (cutAt? start (trim inside)).isSome ∧ (cutAt? (start + 2) (trim inside)).isSome) ∧
    (∀ a b, splitRange inside = some (a, b) ↔
      ∃ before after, IsFirstKeywordSplit (trim inside) before after ∧
        a = trim before ∧ b = trim after) ∧
    (splitRange inside = none ↔ ∀ before after, ¬IsKeywordSplit (trim inside) before after) := by
  refine ⟨fun start hstart => ?_, fun a b => ⟨fun h => ?_, ?_⟩, ⟨fun h => ?_, fun h => ?_⟩⟩
  · obtain ⟨before, after, hfirst, rfl⟩ := keywordOffset?_eq_some hstart
    obtain ⟨word, hbefore, hafter⟩ := hfirst.cutAt?_eq
    have hboth : (cutAt? (utf8Len before) (trim inside)).isSome ∧
        (cutAt? (utf8Len before + 2) (trim inside)).isSome := by
      rw [hbefore, hafter]
      exact ⟨rfl, rfl⟩
    have hvalid := cutAt?_isSome_iff.mp hboth.2
    exact ⟨cutAt?_isSome_iff.mp hboth.1, hvalid, hvalid.le_utf8ByteSize, hboth⟩
  · cases hstart : keywordOffset? (trim inside) with
    | none =>
        rw [splitRange_eq_none hstart] at h
        cases h
    | some start =>
        obtain ⟨before, after, hfirst, -⟩ := keywordOffset?_eq_some hstart
        rw [hfirst.splitRange_eq] at h
        cases h
        exact ⟨before, after, hfirst, rfl, rfl⟩
  · rintro ⟨before, after, hfirst, rfl, rfl⟩
    exact hfirst.splitRange_eq
  · intro before after hsplit
    obtain ⟨start, hstart⟩ := Option.ne_none_iff_exists'.mp hsplit.keywordOffset?_ne_none
    obtain ⟨_, _, hfirst, -⟩ := keywordOffset?_eq_some hstart
    rw [hfirst.splitRange_eq] at h
    cases h
  · cases hstart : keywordOffset? (trim inside) with
    | none => exact splitRange_eq_none hstart
    | some start =>
        obtain ⟨before, after, hfirst, -⟩ := keywordOffset?_eq_some hstart
        exact absurd hfirst.toIsKeywordSplit (h before after)

/-- Letters of two bytes before the word, and another `to` that ends no word. -/
theorem splitRange_keyword_two_bytes :
    keywordOffset? (trim " äß tO öto ".toList) = some 5 ∧
      (String.Pos.Raw.mk 5).IsValid (String.ofList (trim " äß tO öto ".toList)) ∧
      (String.Pos.Raw.mk 7).IsValid (String.ofList (trim " äß tO öto ".toList)) ∧
      ∃ before after, IsFirstKeywordSplit (trim " äß tO öto ".toList) before after ∧
        "äß".toList = trim before ∧ "öto".toList = trim after := by
  have hoffset : keywordOffset? (trim " äß tO öto ".toList) = some 5 := by cbv
  have hsplit : splitRange " äß tO öto ".toList = some ("äß".toList, "öto".toList) := by cbv
  obtain ⟨hbounds, hsome, -⟩ := splitRange_keyword " äß tO öto ".toList
  obtain ⟨hstart, hend, -⟩ := hbounds 5 hoffset
  exact ⟨hoffset, hstart, hend, (hsome _ _).mp hsplit⟩

end QueryFilter
