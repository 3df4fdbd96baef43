/-! # Byte offsets

A place in a text can be given by the number of bytes in front of it, where the text is in UTF-8.
`offsetOf?` finds a word and `offsetWhere?` a character, and both give the offset of what they
find; `cutAt?` cuts a text at an offset, which has to lie between two characters or at an end of the
text. -/

namespace QueryFilter

/-- The number of bytes in front of the first place where the word stands in a text. -/
def offsetOf? (word : List Char) : List Char → Option Nat
  | [] => if word.isEmpty then some 0 else none
  | c :: cs =>
    if word.isPrefixOf (c :: cs) then some 0 else (offsetOf? word cs).map (c.utf8Size + ·)

/-- The number of bytes in front of the first character with a property. -/
def offsetWhere? (p : Char → Bool) : List Char → Option Nat
  | [] => none
  | c :: cs => if p c then some 0 else (offsetWhere? p cs).map (c.utf8Size + ·)

/-- The texts before and after an offset.  No text is cut inside a character or after its end. -/
def cutAt? : Nat → List Char → Option (List Char × List Char)
  | 0, cs => some ([], cs)
  | _ + 1, [] => none
  | offset + 1, c :: cs =>
    if c.utf8Size ≤ offset + 1 then
      (cutAt? (offset + 1 - c.utf8Size) cs).map fun (before, after) => (c :: before, after)
    else none

end QueryFilter
