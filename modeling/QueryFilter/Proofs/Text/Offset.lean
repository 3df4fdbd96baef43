import Mathlib
import QueryFilter.Text.Offset

/-! # Places in a text

What `offsetOf?` and `offsetWhere?` find is the first place of its kind (`offsetOf?_eq_some`,
`offsetWhere?_eq_some`), and a text can be cut exactly where one of its characters starts, and at
its end (`cutAt?_isSome_iff`). -/

namespace QueryFilter

open String (utf8Len)

/-! ### Finding a word -/

section offsets
variable {word cs before after : List Char} {offset : Nat}

/-- The offset is that of the first place of the word. -/
theorem offsetOf?_eq_some (h : offsetOf? word cs = some offset) :
    ∃ front back, cs = front ++ word ++ back ∧ utf8Len front = offset ∧
      ∀ front' back', cs = front' ++ word ++ back' → front.length ≤ front'.length := by
  induction cs generalizing offset with
  | nil =>
      obtain ⟨hword, rfl⟩ : word = [] ∧ 0 = offset := by simpa [offsetOf?] using h
      exact ⟨[], [], by simp [hword], rfl, fun _ _ _ => Nat.zero_le _⟩
  | cons c cs ih =>
      rw [offsetOf?] at h
      split at h
      · next hprefix =>
        cases h
        obtain ⟨back, hback⟩ := List.isPrefixOf_iff_prefix.mp hprefix
        exact ⟨[], back, hback.symm, rfl, fun _ _ _ => Nat.zero_le _⟩
      · next hprefix =>
        obtain ⟨rest, hrest, rfl⟩ := Option.map_eq_some_iff.mp h
        obtain ⟨front, back, rfl, rfl, hfirst⟩ := ih hrest
        refine ⟨c :: front, back, rfl, Nat.add_comm _ _, fun front' back' heq => ?_⟩
        cases front' with
        | nil => exact absurd (List.isPrefixOf_iff_prefix.mpr ⟨back', heq.symm⟩) hprefix
        | cons d front' => exact Nat.succ_le_succ (hfirst front' back' (List.cons.inj heq).2)

theorem offsetOf?_append_ne_none (front word back : List Char) :
    offsetOf? word (front ++ word ++ back) ≠ none := by
  induction front with
  | nil =>
      cases word with
      | nil => cases back <;> simp [offsetOf?]
      | cons w word =>
          rw [List.nil_append, List.cons_append, offsetOf?, if_pos]
          · exact Option.some_ne_none 0
          · exact List.isPrefixOf_iff_prefix.mpr ⟨back, rfl⟩
  | cons c front ih =>
      rw [List.cons_append, List.cons_append, offsetOf?]
      split
      · exact Option.some_ne_none 0
      · exact mt Option.map_eq_none_iff.mp ih

/-! ### Finding a character -/

/-- The offset is that of the first character with the property. -/
theorem offsetWhere?_eq_some {p : Char → Bool} (h : offsetWhere? p cs = some offset) :
    ∃ front c back, cs = front ++ c :: back ∧ utf8Len front = offset ∧ p c = true ∧
      ∀ d ∈ front, p d = false := by
  induction cs generalizing offset with
  | nil => cases h
  | cons c cs ih =>
      rw [offsetWhere?] at h
      split at h
      · next hc =>
        cases h
        exact ⟨[], c, cs, rfl, rfl, hc, by simp⟩
      · next hc =>
        obtain ⟨rest, hrest, rfl⟩ := Option.map_eq_some_iff.mp h
        obtain ⟨front, d, back, rfl, rfl, hd, hfront⟩ := ih hrest
        have hall : ∀ d ∈ c :: front, p d = false :=
          List.forall_mem_cons.mpr ⟨by simpa using hc, hfront⟩
        exact ⟨c :: front, d, back, rfl, Nat.add_comm _ _, hd, hall⟩

theorem offsetWhere?_eq_none {p : Char → Bool} (h : offsetWhere? p cs = none) :
    ∀ c ∈ cs, p c = false := by
  induction cs with
  | nil => simp
  | cons c cs ih =>
      rw [offsetWhere?] at h
      split at h
      · cases h
      · next hc =>
        exact List.forall_mem_cons.mpr ⟨by simpa using hc, ih (Option.map_eq_none_iff.mp h)⟩

/-! ### Cutting -/

theorem cutAt?_append (before after : List Char) :
    cutAt? (utf8Len before) (before ++ after) = some (before, after) := by
  induction before with
  | nil => cases after <;> rfl
  | cons c before ih =>
      have hpos := c.utf8Size_pos
      obtain ⟨n, hn⟩ : ∃ n, utf8Len (c :: before) = n + 1 :=
        Nat.exists_eq_succ_of_ne_zero (by rw [String.utf8Len_cons]; omega)
      rw [String.utf8Len_cons] at hn
      have hrest : n + 1 - c.utf8Size = utf8Len before := by omega
      rw [String.utf8Len_cons, hn, List.cons_append, cutAt?, if_pos (by omega), hrest, ih]
      rfl

theorem cutAt?_end (cs : List Char) : cutAt? (utf8Len cs) cs = some (cs, []) := by
  have hcut := cutAt?_append cs []
  rwa [List.append_nil] at hcut

theorem cutAt?_eq_some (h : cutAt? offset cs = some (before, after)) :
    cs = before ++ after ∧ utf8Len before = offset := by
  fun_induction cutAt? offset cs generalizing before with
  | case1 cs =>
      cases h
      exact ⟨rfl, rfl⟩
  | case2 => cases h
  | case3 n c cs hle ih =>
      obtain ⟨⟨before', after'⟩, hcut, heq⟩ := Option.map_eq_some_iff.mp h
      cases heq
      obtain ⟨rfl, hlen⟩ := ih hcut
      refine ⟨rfl, ?_⟩
      rw [String.utf8Len_cons, hlen]
      omega
  | case4 => cases h

/-- A text can be cut where a character starts and at its end. -/
theorem cutAt?_isSome_iff :
    (cutAt? offset cs).isSome ↔ (String.Pos.Raw.mk offset).IsValid (String.ofList cs) := by
  rw [String.Pos.Raw.isValid_iff_exists_append]
  constructor
  · intro h
    obtain ⟨⟨before, after⟩, hcut⟩ := Option.isSome_iff_exists.mp h
    obtain ⟨rfl, rfl⟩ := cutAt?_eq_some hcut
    refine ⟨String.ofList before, String.ofList after, String.ofList_append, ?_⟩
    rw [String.rawEndPos, String.utf8ByteSize_ofList]
  · rintro ⟨s, t, hst, hoffset⟩
    have hcs : cs = s.toList ++ t.toList := by
      rw [← String.toList_append, ← hst, String.toList_ofList]
    have hlen : offset = utf8Len s.toList := by
      rw [← String.utf8ByteSize_ofList, String.ofList_toList]
      exact congrArg String.Pos.Raw.byteIdx hoffset
    rw [hcs, hlen, cutAt?_append]
    rfl

end offsets

end QueryFilter
