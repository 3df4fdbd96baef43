import QueryFilter.Document
import QueryFilter.Text.Blank

/-! # Text searches

A text search is the clause `$text: $search: words`.  Its words and quoted phrases are wanted, those
with a `-` in front are unwanted.  `negateSearch` turns wanted into unwanted and back. -/

namespace QueryFilter

/-- The clause that searches for a text. -/
def textSearch (search : String) : Document :=
  Document.entry Op.text (.document (Document.entry Op.search (.string search)))

/-- The text that a clause searches for, if it is a plain text search. -/
def searchOf? : Document → Option String
  | [(text, .document [(search, .string words)])] =>
    if text = Op.text ∧ search = Op.search then some words else none
  | _ => none

@[simp]
theorem searchOf?_textSearch (search : String) : searchOf? (textSearch search) = some search := by
  simp [searchOf?, textSearch, Document.entry]

/-! ### Negation -/

/-- The term that a search starts with, and the rest: a phrase up to its closing quote, or to the
end if there is none, and otherwise everything up to a blank. -/
def searchTerm : List Char → List Char × List Char
  | '"' :: cs =>
    match cs.dropWhile (· != '"') with
    | [] => ('"' :: cs, [])
    | _ :: rest => ('"' :: cs.takeWhile (· != '"') ++ ['"'], rest)
  | cs => (cs.takeWhile (!isBlank ·), cs.dropWhile (!isBlank ·))

theorem length_searchTerm_le (cs : List Char) : (searchTerm cs).2.length ≤ cs.length := by
  unfold searchTerm
  split
  · next cs =>
    have h := (List.dropWhile_suffix (l := cs) (· != '"')).length_le
    split
    · simp
    · next hd => rw [hd] at h; simp only [List.length_cons] at h ⊢; omega
  · exact (List.dropWhile_suffix _).length_le

theorem length_searchTerm_lt {c : Char} (hc : isBlank c = false) (cs : List Char) :
    (searchTerm (c :: cs)).2.length < (c :: cs).length := by
  unfold searchTerm
  split
  · next tail heq =>
    rw [heq]
    have h := (List.dropWhile_suffix (l := tail) (· != '"')).length_le
    split
    · simp
    · next hd => rw [hd] at h; simp only [List.length_cons] at h ⊢; omega
  · have h := (List.dropWhile_suffix (l := cs) (!isBlank ·)).length_le
    simp only [List.dropWhile_cons, hc, Bool.not_false, if_true, List.length_cons]
    omega

/-- The terms of a search, each with its `-` taken away or put in front.  A `-` alone is dropped. -/
def negatedTerms (cs : List Char) : List (List Char) :=
  match h : trimStart cs with
  | [] => []
  | c :: tail =>
    have hlen : tail.length < cs.length := by
      have := length_trimStart_le cs
      rw [h, List.length_cons] at this
      omega
    if c = '-' then
      have := length_searchTerm_le tail
      let term := (searchTerm tail).1
      if term.isEmpty then negatedTerms (searchTerm tail).2
      else term :: negatedTerms (searchTerm tail).2
    else
      have := length_searchTerm_lt (isBlank_of_trimStart_eq_cons h) tail
      have : (c :: tail).length ≤ cs.length := by rw [← h]; exact length_trimStart_le cs
      ('-' :: (searchTerm (c :: tail)).1) :: negatedTerms (searchTerm (c :: tail)).2
termination_by cs.length

/-- The search with every term negated. -/
def negateSearch (search : String) : String :=
  " ".intercalate ((negatedTerms search.toList).map String.ofList)

end QueryFilter
