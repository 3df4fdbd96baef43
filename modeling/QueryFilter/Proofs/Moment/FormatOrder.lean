import Mathlib
import QueryFilter.Proofs.Moment.Calendar
import QueryFilter.Proofs.Moment.DateText

/-! # The order of the date formats

A text that two date formats accept is read as the same moment in both, so they can be tried in any
order (`findSome?_of_perm_dateFormats`).

The characters of a text that are neither digits nor signs (`separators`) tell nearly all formats
apart.  Two pairs are left: `MM/DD/YYYY` and `YYYY/MM/DD`, which differ in the place of the first
slash, and timestamps and `YYYY-MM-DDThh:mm:ssZ`, which do overlap.  To compare these two, both are
seen as a day, a separator and a clock, each read off the front of the text (`Layout.take?`). -/

namespace QueryFilter

/-! ### Reading off the front of a text -/

namespace Layout

/-- Reads the parts in turn: the local time and the rest of the text. -/
def take? : Layout → LocalTime → List Char → Option (LocalTime × List Char)
  | [], t, cs => some (t, cs)
  | part :: parts, t, cs => (part.read? t cs).bind fun (t, rest) => take? parts t rest

variable {layout : Layout} {cs : List Char} {m : Moment}

theorem take?_append (first second : Layout) (t : LocalTime) (cs : List Char) :
    take? (first ++ second) t cs = (first.take? t cs).bind fun (t, rest) => second.take? t rest := by
  induction first generalizing t cs with
  | nil => rfl
  | cons part parts ih => simp [take?, ih, Option.bind_assoc]

/-- A text is read in a layout if nothing is left of it. -/
theorem readLocal?_eq_some_iff {t t' : LocalTime} :
    layout.readLocal? t cs = some t' ↔ layout.take? t cs = some (t', []) := by
  induction layout generalizing t cs with
  | nil => cases cs <;> simp [readLocal?, take?]
  | cons part parts ih =>
      rw [readLocal?, take?]
      cases part.read? t cs with
      | none => simp
      | some p => exact ih

theorem read?_eq_some_iff :
    layout.read? cs = some m ↔
      ∃ t, layout.take? {} cs = some (t, []) ∧ t.isValid = true ∧ m = .ofUtc t := by
  rw [read?]
  cases hread : layout.readLocal? {} cs with
  | none => simp [← readLocal?_eq_some_iff, hread]
  | some t =>
      simp only [← readLocal?_eq_some_iff, hread, Option.some.injEq, exists_eq_left']
      split
      · next hvalid => simp [hvalid, eq_comm]
      · next hvalid => simp [hvalid]

end Layout

/-- The text starts with a sign. -/
def startsWithSign (cs : List Char) : Bool := cs.head? == some '+' || cs.head? == some '-'

theorem startsWithSign_of_isDigit {d : Char} (h : d.isDigit = true) (cs : List Char) :
    startsWithSign (d :: cs) = false := by
  have hne {c : Char} (hc : c.isDigit = false) : d ≠ c := by
    rintro rfl
    rw [h] at hc
    cases hc
  simp [startsWithSign, hne]

theorem LayoutPart.readYear?_eq {cs : List Char} (h : startsWithSign cs = false) :
    readYear? cs = (takeDigits? 4 cs).map fun (n, rest) => ((n : Int), rest) := by
  unfold readYear?
  split
  · cases h
  · cases h
  · rfl

namespace Timestamp
variable {cs : List Char} {m : Moment}

/-- A timestamp is a day, a separator, a clock, a fraction and an offset. -/
theorem read?_eq (h : startsWithSign cs = false) :
    read? cs = (Layout.dashedDate.take? {} cs).bind fun (t, rest) =>
      (takeSeparator? rest).bind fun rest =>
        (Layout.clock.take? t rest).bind fun (t, rest) =>
          (readFraction? rest).bind fun (nanos, rest) =>
            (readOffset? rest).bind fun offset => moment? t nanos offset := by
  simp only [read?, Layout.dashedDate, Layout.clock, Layout.take?, LayoutPart.read?,
    LayoutPart.readYear?_eq h, Option.bind_eq_bind, Option.bind_assoc, Option.bind_map,
    Option.bind_some, Function.comp_def]

theorem startsWithSign_of_read? (h : read? cs = some m) : startsWithSign cs = false := by
  rw [read?] at h
  obtain ⟨⟨n, rest⟩, hyear, -⟩ := Option.bind_eq_some_iff.mp h
  obtain ⟨digits, rfl, hlength, hdigits⟩ := takeDigits?_eq_some hyear
  obtain ⟨d, more, rfl⟩ := List.exists_cons_of_length_eq_add_one hlength
  exact startsWithSign_of_isDigit (hdigits d (by simp)) _

end Timestamp

/-! ### Separators -/

/-- The characters that are neither digits nor signs. -/
def separators (cs : List Char) : List Char :=
  cs.filter fun c => !(c.isDigit || c == '+' || c == '-')

theorem separators_append (a b : List Char) : separators (a ++ b) = separators a ++ separators b :=
  List.filter_append a b

/-- The character that a mark of a layout is. -/
def LayoutPart.mark? : LayoutPart → Option Char
  | .mark c => some c
  | _ => none

/-- The separators of all texts in the layout. -/
def Layout.separators (layout : Layout) : List Char :=
  QueryFilter.separators (layout.filterMap LayoutPart.mark?)

theorem IsInteger.separators_eq {cs : List Char} (h : IsInteger cs) : separators cs = [] := by
  obtain ⟨sign, digits, rfl, hsign, -, hdigits⟩ := h
  have hnone : separators digits = [] := by
    rw [separators, List.filter_eq_nil_iff]
    intro c hc
    simp [hdigits c hc]
  rw [separators_append, hnone, List.append_nil]
  simp only [List.mem_cons, List.not_mem_nil, or_false] at hsign
  rcases hsign with rfl | rfl | rfl <;> rfl

theorem Layout.Spells.separators_eq {layout : Layout} {cs : List Char} (h : layout.Spells cs) :
    QueryFilter.separators cs = layout.separators := by
  induction h with
  | nil => rfl
  | @cons part parts taken rest hpart _ ih =>
      rw [separators_append, ih]
      cases part with
      | mark c =>
          obtain rfl := hpart
          exact (separators_append [c] _).symm
      | year | month | day | hour | minute | second =>
          rw [IsInteger.separators_eq hpart]
          rfl

/-- Layouts with different separators have no text in common. -/
theorem Layout.read?_disjoint {first second : Layout} (h : first.separators ≠ second.separators)
    {cs : List Char} {m n : Moment} (hfirst : first.read? cs = some m)
    (hsecond : second.read? cs = some n) : False := by
  have hf := (Layout.spells_of_read? hfirst).separators_eq
  have hs := (Layout.spells_of_read? hsecond).separators_eq
  exact h (hf.symm.trans hs)

namespace Timestamp
variable {cs : List Char} {m n : Moment}

theorem separators_readOffset?_ne_nil {offset : Int} (h : readOffset? cs = some offset) :
    separators cs ≠ [] := by
  have hcolon {rest : List Char} {seconds : Nat} (hclock : readOffsetClock? rest = some seconds) :
      ':' ∈ rest := by
    simp only [readOffsetClock?, Option.bind_eq_bind, Option.bind_eq_some_iff] at hclock
    obtain ⟨⟨_, _⟩, hhours, _, hmark, -⟩ := hclock
    obtain ⟨hours, rfl, -, -⟩ := takeDigits?_eq_some hhours
    obtain rfl := takeMark?_eq_some hmark
    simp
  have hmem {c : Char} {rest : List Char} {seconds : Nat}
      (hclock : readOffsetClock? rest = some seconds) : separators (c :: rest) ≠ [] :=
    List.ne_nil_of_mem (List.mem_filter.mpr ⟨List.mem_cons_of_mem c (hcolon hclock), rfl⟩)
  unfold readOffset? at h
  split at h
  · exact List.cons_ne_nil _ _
  · exact List.cons_ne_nil _ _
  · obtain ⟨_, hread, -⟩ := Option.map_eq_some_iff.mp h
    obtain ⟨seconds, hclock, -⟩ := Option.bind_eq_some_iff.mp hread
    exact hmem hclock
  · obtain ⟨_, hread, -⟩ := Option.map_eq_some_iff.mp h
    obtain ⟨seconds, hclock, -⟩ := Option.bind_eq_some_iff.mp hread
    exact hmem hclock
  · cases h

theorem exists_append_of_readFraction? {rest : List Char} {nanos : Nat}
    (h : readFraction? cs = some (nanos, rest)) : ∃ front, cs = front ++ rest := by
  unfold readFraction? at h
  split at h
  · next digits =>
    dsimp only at h
    split at h
    · cases h
    · cases h
      refine ⟨'.' :: digits.takeWhile Char.isDigit, ?_⟩
      rw [List.cons_append, List.takeWhile_append_dropWhile]
  · cases h
    exact ⟨[], rfl⟩

theorem takeSeparator?_of_takeMark? {mark : Char} {rest : List Char} (hmark : mark.toNat < 128)
    (h : takeMark? mark cs = some rest) : takeSeparator? cs = some rest := by
  rw [takeMark?_eq_some h, takeSeparator?, if_pos hmark]

/-- What separates the parts of a timestamp: the colons of its clock, after any one character or
none, and before something else. -/
theorem exists_separators (h : read? cs = some m) :
    ∃ separator tail, separators cs = separators [separator] ++ ':' :: ':' :: tail ∧ tail ≠ [] := by
  obtain ⟨day, separator, clock, tail, zone, t, nanos, offset, rfl, hday, hclock, hfraction, hoffset,
    -⟩ := read?_eq_some h
  obtain ⟨front, rfl⟩ := exists_append_of_readFraction? hfraction
  refine ⟨separator, separators (front ++ zone), ?_, ?_⟩
  · rw [List.append_cons, separators_append, separators_append, separators_append,
      hday.separators_eq, hclock.separators_eq]
    rfl
  · rw [separators_append]
    exact List.append_ne_nil_of_right_ne_nil _ (separators_readOffset?_ne_nil hoffset)

/-- No timestamp is in a layout whose separators are too few or begin with a colon. -/
theorem read?_disjoint {layout : Layout} (hhead : layout.separators.head? ≠ some ':')
    (hlength : layout.separators.length ≤ 3)
    (h : read? cs = some m) (h' : layout.read? cs = some n) : False := by
  obtain ⟨separator, tail, hseparators, hne⟩ := exists_separators h
  have htail := List.length_pos_iff.mpr hne
  rw [(Layout.spells_of_read? h').separators_eq] at hseparators
  rw [hseparators] at hhead hlength
  -- the separator is a digit or a sign, or there are four separators
  rw [separators, List.filter_cons] at hhead hlength
  split at hhead
  · next hc =>
    simp [hc] at hlength
    omega
  · exact hhead rfl

/-- A timestamp with the letters `T` and `Z` is the moment that the layout with these letters
says. -/
theorem read?_agrees
    (h' : Layout.read? (Layout.dashedDate ++ .mark 'T' :: Layout.clock ++ [.mark 'Z']) cs = some n)
    (h : read? cs = some m) : m = n := by
  obtain ⟨t, htake, hvalid, rfl⟩ := Layout.read?_eq_some_iff.mp h'
  rw [List.append_assoc, Layout.take?_append, List.cons_append, Option.bind_eq_some_iff] at htake
  obtain ⟨⟨date, timed⟩, hdate, htake⟩ := htake
  dsimp only at htake
  rw [Layout.take?, LayoutPart.read?, Option.bind_map, Option.bind_eq_some_iff] at htake
  obtain ⟨clocked, hmark, htake⟩ := htake
  simp only [Function.comp_apply, Layout.take?_append, Option.bind_eq_some_iff, Prod.exists] at htake
  obtain ⟨time, zone, hclock, htake⟩ := htake
  rw [Layout.take?, LayoutPart.read?, Option.bind_map, Option.bind_eq_some_iff] at htake
  obtain ⟨rest, hzulu, htake⟩ := htake
  obtain ⟨rfl, rfl⟩ : time = t ∧ rest = [] := by simpa [Layout.take?] using htake
  obtain rfl := takeMark?_eq_some hzulu
  -- the timestamp is read off the same parts
  rw [read?_eq (startsWithSign_of_read? h), hdate, Option.bind_some] at h
  dsimp only at h
  rw [takeSeparator?_of_takeMark? (by decide) hmark, Option.bind_some, hclock] at h
  have hsecond := (LocalTime.fields_of_isValid hvalid).2.2.2.2
  have hmoment : moment? time 0 0 = some m := h
  rw [moment?, if_neg (by omega), dif_pos ⟨hvalid, by decide⟩] at hmoment
  cases hmoment
  simp [Moment.ofUtc]

end Timestamp

/-- Where one layout has a slash the other one has the third digit of a year. -/
theorem Layout.monthFirst_disjoint_slashedDate {cs : List Char} {m n : Moment}
    (h : Layout.monthFirst.read? cs = some m) (h' : Layout.slashedDate.read? cs = some n) :
    False := by
  obtain ⟨t, hmonth, -⟩ := Layout.read?_eq_some_iff.mp h
  obtain ⟨t', hyear, -⟩ := Layout.read?_eq_some_iff.mp h'
  rw [Layout.monthFirst, Layout.take?, LayoutPart.read?, Option.bind_map,
    Option.bind_eq_some_iff] at hmonth
  rw [Layout.slashedDate, Layout.take?, LayoutPart.read?, Option.bind_map,
    Option.bind_eq_some_iff] at hyear
  obtain ⟨⟨month, afterMonth⟩, htwo, hmonth⟩ := hmonth
  obtain ⟨⟨year, afterYear⟩, hfour, -⟩ := hyear
  dsimp only [Function.comp_apply] at hmonth
  rw [Layout.take?, LayoutPart.read?, Option.bind_map, Option.bind_eq_some_iff] at hmonth
  obtain ⟨afterSlash, hslash, -⟩ := hmonth
  obtain ⟨digits, rfl, hlength, hdigits⟩ := takeDigits?_eq_some htwo
  obtain ⟨a, b, rfl⟩ := List.length_eq_two.mp hlength
  obtain rfl := takeMark?_eq_some hslash
  have hsign : startsWithSign ([a, b] ++ '/' :: afterSlash) = false :=
    startsWithSign_of_isDigit (hdigits a (by simp)) _
  rw [LayoutPart.readYear?_eq hsign, Option.map_eq_some_iff] at hfour
  obtain ⟨⟨n, rest⟩, hfour, -⟩ := hfour
  obtain ⟨four, htext, hlength, hdigits⟩ := takeDigits?_eq_some hfour
  obtain ⟨c, d, e, f, rfl⟩ := List.length_eq_four.mp hlength
  obtain ⟨-, -, rfl, -⟩ : a = c ∧ b = d ∧ '/' = e ∧ afterSlash = f :: rest := by simpa using htext
  cases hdigits '/' (by simp)

/-! ### Agreement -/

/-- What both formats read is the same moment. -/
def DateFormat.Agrees (f g : DateFormat) : Prop :=
  ∀ cs m n, f.read? cs = some m → g.read? cs = some n → m = n

instance : Std.Symm DateFormat.Agrees :=
  ⟨fun _ _ h cs m n hm hn => (h cs n m hn hm).symm⟩

theorem DateFormat.Agrees.refl (f : DateFormat) : f.Agrees f :=
  fun _ _ _ hm hn => Option.some.inj (hm.symm.trans hn)

theorem pairwise_agrees : dateFormats.Pairwise DateFormat.Agrees := by
  have timestamp {name name' : String} {layout : Layout}
      (hhead : layout.separators.head? ≠ some ':') (hlength : layout.separators.length ≤ 3) :
      DateFormat.Agrees ⟨name, Timestamp.read?⟩ ⟨name', layout.read?⟩ :=
    fun _ _ _ hm hn => (Timestamp.read?_disjoint hhead hlength hm hn).elim
  have layouts {name name' : String} {first second : Layout}
      (hne : first.separators ≠ second.separators) :
      DateFormat.Agrees ⟨name, first.read?⟩ ⟨name', second.read?⟩ :=
    fun _ _ _ hm hn => (Layout.read?_disjoint hne hm hn).elim
  simp only [dateFormats, List.pairwise_cons, List.forall_mem_cons, List.not_mem_nil, false_implies,
    implies_true, List.Pairwise.nil, and_true]
  refine ⟨⟨timestamp (by decide) (by decide), fun _ _ _ hm hn => Timestamp.read?_agrees hn hm,
    timestamp (by decide) (by decide), timestamp (by decide) (by decide),
    timestamp (by decide) (by decide), timestamp (by decide) (by decide)⟩,
    ⟨layouts (by decide), layouts (by decide), layouts (by decide), layouts (by decide),
      layouts (by decide)⟩,
    ⟨layouts (by decide), layouts (by decide), layouts (by decide), layouts (by decide)⟩,
    ⟨layouts (by decide), layouts (by decide), layouts (by decide)⟩,
    ⟨layouts (by decide), layouts (by decide)⟩, ?_⟩
  exact fun _ _ _ hm hn => (Layout.monthFirst_disjoint_slashedDate hm hn).elim

theorem DateFormat.agrees_of_mem {f g : DateFormat} (hf : f ∈ dateFormats) (hg : g ∈ dateFormats) :
    f.Agrees g := by
  by_cases hfg : f = g
  · rw [hfg]
    exact .refl g
  · exact pairwise_agrees.forall hf hg hfg

/-- A text is a date if it is one in any of the formats. -/
theorem Moment.ofText?_of_mem {text : String} {m : Moment} {format : DateFormat}
    (hformat : format ∈ dateFormats) (h : format.read? text.toList = some m) :
    Moment.ofText? text = some m := by
  rw [Moment.ofText?]
  cases hfound : dateFormats.findSome? fun format => format.read? text.toList with
  | none =>
      rw [List.findSome?_eq_none_iff.mp hfound format hformat] at h
      cases h
  | some n =>
      obtain ⟨first, hfirst, hread⟩ := List.exists_of_findSome?_eq_some hfound
      rw [DateFormat.agrees_of_mem hfirst hformat _ n m hread h]

/-- Among values that agree, the first one found is the same in any order. -/
theorem findSome?_eq_of_perm {α β : Type} {f : α → Option β} {first second : List α}
    (hperm : first.Perm second)
    (h : ∀ a ∈ second, ∀ b ∈ second, ∀ m n, f a = some m → f b = some n → m = n) :
    first.findSome? f = second.findSome? f := by
  cases hsecond : second.findSome? f with
  | none =>
      rw [List.findSome?_eq_none_iff] at hsecond ⊢
      exact fun a ha => hsecond a (hperm.subset ha)
  | some n =>
      obtain ⟨b, hb, hn⟩ := List.exists_of_findSome?_eq_some hsecond
      cases hfirst : first.findSome? f with
      | none =>
          rw [List.findSome?_eq_none_iff.mp hfirst b (hperm.symm.subset hb)] at hn
          cases hn
      | some m =>
          obtain ⟨a, ha, hm⟩ := List.exists_of_findSome?_eq_some hfirst
          rw [h a (hperm.subset ha) b hb m n hm hn]

/-- **The order of the date formats does not matter.**  Formats that accept the same text read the
same instant off it, with the same offset, and so do the formats tried in any order. -/
theorem findSome?_of_perm_dateFormats (text : String) :
    (∀ f ∈ dateFormats, ∀ g ∈ dateFormats, ∀ m n, f.read? text.toList = some m →
      g.read? text.toList = some n → m.instant = n.instant ∧ m.offset = n.offset) ∧
    ∀ formats : List DateFormat, formats.Perm dateFormats →
      (formats.findSome? fun format => format.read? text.toList) = Moment.ofText? text := by
  constructor
  · intro f hf g hg m n hm hn
    rw [DateFormat.agrees_of_mem hf hg _ m n hm hn]
    exact ⟨rfl, rfl⟩
  · intro formats hperm
    exact findSome?_eq_of_perm hperm fun f hf g hg m n => DateFormat.agrees_of_mem hf hg _ m n

/-- A text that two formats accept, and the formats tried from the last to the first. -/
theorem findSome?_of_perm_dateFormats_overlap :
    let text := "2023-01-15T10:30:00Z"
    let zulu := Layout.dashedDate ++ .mark 'T' :: Layout.clock ++ [.mark 'Z']
    (∃ m n, Timestamp.read? text.toList = some m ∧ zulu.read? text.toList = some n ∧
      m.instant = n.instant ∧ m.offset = n.offset) ∧
    (dateFormats.reverse.findSome? fun format => format.read? text.toList) =
      Moment.ofText? text := by
  intro text zulu
  have htimestamp : (⟨"RFC 3339", Timestamp.read?⟩ : DateFormat) ∈ dateFormats := by
    simp [dateFormats]
  have hzulu : (⟨"YYYY-MM-DDThh:mm:ssZ", zulu.read?⟩ : DateFormat) ∈ dateFormats := by
    simp [dateFormats, zulu]
  have hm : Timestamp.read? text.toList =
      some (.ofUtc { year := 2023, day := 15, hour := 10, minute := 30 }) := by
    cbv
  have hn : zulu.read? text.toList =
      some (.ofUtc { year := 2023, day := 15, hour := 10, minute := 30 }) := by
    cbv
  obtain ⟨hagree, horder⟩ := findSome?_of_perm_dateFormats text
  exact ⟨⟨_, _, hm, hn, hagree _ htimestamp _ hzulu _ _ hm hn⟩, horder _ (List.reverse_perm _)⟩

end QueryFilter
