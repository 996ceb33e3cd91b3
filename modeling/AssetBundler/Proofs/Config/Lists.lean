import AssetBundler.Config.Values
import AssetBundler.Proofs.Text.Blank
import AssetBundler.Proofs.Text.Lines

/-!
Lists in settings. Commas and line feeds part the items, so a text that is put together at one of
them lists what its two sides list. Items are got back from every text that spells them.
-/

namespace AssetBundler.Config

open Text (isBlank)

/-- An item that stands in a list. -/
structure IsEntry (item : String) : Prop where
  filled : item ≠ ""
  trimmed : Text.IsTrimmed item.toList
  noComma : ',' ∉ item.toList
  noFeed : '\n' ∉ item.toList

def IsParting (c : Char) : Prop := c = ',' ∨ c = '\n'

instance : DecidablePred IsParting := fun c => inferInstanceAs (Decidable (c = ',' ∨ c = '\n'))

/-- A character that belongs to no item, wherever it stands between items. -/
def IsLoose (c : Char) : Prop := c = ',' ∨ isBlank c = true

instance : DecidablePred IsLoose :=
  fun c => inferInstanceAs (Decidable (c = ',' ∨ isBlank c = true))

theorem IsParting.isLoose {c : Char} (parting : IsParting c) : IsLoose c := by
  rcases parting with rfl | rfl
  · exact .inl rfl
  · exact .inr rfl

/-- A text without items. -/
def IsGap (text : String) : Prop := ∀ c ∈ text.toList, IsLoose c

instance : DecidablePred IsGap := fun text => List.decidableBAll IsLoose text.toList

/-- A gap that parts the items before it from those behind it. -/
structure IsSeparator (text : String) : Prop where
  gap : IsGap text
  parts : ∃ c ∈ text.toList, IsParting c

section Pieces

variable {c : Char} {text : List Char}

/-- The pieces of all lines. -/
def pieces (text : List Char) : List (List Char) :=
  (Text.splitAt '\n' text).flatMap (Text.splitAt ',')

/-- It does not matter that the lines are parted before the pieces. -/
theorem pieces_cons (c : Char) (rest : List Char) :
    pieces (c :: rest) =
      if IsParting c then [] :: pieces rest else (pieces rest).modifyHead (c :: ·) := by
  have lines : Text.splitAt '\n' rest ≠ [] := by
    rw [Text.splitAt_eq_splitOn]
    exact List.splitOn_ne_nil '\n' rest
  obtain ⟨line, others, shape⟩ := List.exists_cons_of_ne_nil lines
  have items : Text.splitAt ',' line ≠ [] := by
    rw [Text.splitAt_eq_splitOn]
    exact List.splitOn_ne_nil ',' line
  obtain ⟨piece, more, parted⟩ := List.exists_cons_of_ne_nil items
  simp only [pieces, Text.splitAt, shape]
  by_cases feed : c = '\n'
  · rw [if_pos feed, if_pos (.inr feed)]
    rfl
  · rw [if_neg feed, List.flatMap_cons, Text.splitAt, parted, List.flatMap_cons, parted]
    by_cases comma : c = ','
    · rw [if_pos comma, if_pos (.inl comma)]
      rfl
    · have inside : ¬IsParting c := fun parting => parting.elim comma feed
      rw [if_neg comma, if_neg inside]
      rfl

theorem pieces_ne_nil (text : List Char) : pieces text ≠ [] := by
  cases text with
  | nil => exact List.cons_ne_nil [] []
  | cons c rest =>
      rw [pieces_cons]
      split
      · exact List.cons_ne_nil _ _
      · rw [ne_eq, List.modifyHead_eq_nil_iff]
        exact pieces_ne_nil rest

theorem pieces_append_cons (parting : IsParting c) (before after : List Char) :
    pieces (before ++ c :: after) = pieces before ++ pieces after := by
  induction before with
  | nil =>
      rw [List.nil_append, pieces_cons, if_pos parting]
      rfl
  | cons first rest inductionHypothesis =>
      obtain ⟨piece, others, shape⟩ := List.exists_cons_of_ne_nil (pieces_ne_nil rest)
      rw [List.cons_append, pieces_cons, pieces_cons, inductionHypothesis, shape]
      split <;> rfl

/-- A character at the end goes to the last piece. -/
theorem exists_pieces_concat (inside : ¬IsParting c) (text : List Char) :
    ∃ before last, pieces text = before ++ [last] ∧
      pieces (text ++ [c]) = before ++ [last ++ [c]] := by
  induction text with
  | nil =>
      refine ⟨[], [], rfl, ?_⟩
      rw [List.nil_append, pieces_cons, if_neg inside]
      rfl
  | cons first rest inductionHypothesis =>
      obtain ⟨before, last, shape, longer⟩ := inductionHypothesis
      rw [List.cons_append, pieces_cons, pieces_cons, shape, longer]
      split
      · exact ⟨[] :: before, last, rfl, rfl⟩
      · cases before with
        | nil => exact ⟨[], first :: last, rfl, rfl⟩
        | cons piece others => exact ⟨(first :: piece) :: others, last, rfl, rfl⟩

theorem pieces_of_not_parting (inside : ∀ c ∈ text, ¬IsParting c) : pieces text = [text] := by
  induction text with
  | nil => rfl
  | cons c rest inductionHypothesis =>
      obtain ⟨first, others⟩ := List.forall_mem_cons.mp inside
      rw [pieces_cons, if_neg first, inductionHypothesis others]
      rfl

theorem not_parting_of_mem_pieces {piece : List Char} (isPiece : piece ∈ pieces text)
    (member : c ∈ piece) : ¬IsParting c := by
  obtain ⟨line, isLine, inLine⟩ := List.mem_flatMap.mp isPiece
  intro parting
  rcases parting with rfl | rfl
  · exact Text.separator_not_mem_of_mem_splitAt inLine member
  · exact Text.separator_not_mem_of_mem_splitAt isLine (Text.mem_of_mem_splitAt inLine member)

end Pieces

section Items

variable {c : Char} {text : List Char}

/-- The items among the pieces. -/
def itemsAmong (pieces : List (List Char)) : List String :=
  (pieces.map fun piece => String.ofList (Text.trim piece)).filter (· != "")

def itemsOf (text : List Char) : List String := itemsAmong (pieces text)

theorem splitList_eq (value : String) : splitList value = itemsOf value.toList := by
  have parted : (Text.lines value).flatMap (Text.splitOn ',') =
      (pieces value.toList).map String.ofList := by
    simp only [Text.lines, Text.splitOn, pieces, List.flatMap_map, List.map_flatMap,
      String.toList_ofList]
  simp only [splitList, parted, itemsOf, itemsAmong, List.map_map]
  congr 2
  funext piece
  show Text.strip (String.ofList piece) = String.ofList (Text.trim piece)
  rw [Text.strip, String.toList_ofList]

theorem itemsAmong_append (pieces others : List (List Char)) :
    itemsAmong (pieces ++ others) = itemsAmong pieces ++ itemsAmong others := by
  rw [itemsAmong, List.map_append, List.filter_append]
  rfl

/-- A piece counts by what is left of it without the blanks at its ends. -/
theorem itemsAmong_cons_congr {piece other : List Char} (same : Text.trim piece = Text.trim other)
    (pieces : List (List Char)) : itemsAmong (piece :: pieces) = itemsAmong (other :: pieces) := by
  rw [itemsAmong, List.map_cons, same]
  rfl

theorem itemsOf_append_cons (parting : IsParting c) (before after : List Char) :
    itemsOf (before ++ c :: after) = itemsOf before ++ itemsOf after := by
  rw [itemsOf, pieces_append_cons parting, itemsAmong_append]
  rfl

theorem itemsOf_cons (loose : IsLoose c) (text : List Char) :
    itemsOf (c :: text) = itemsOf text := by
  by_cases parting : IsParting c
  · exact itemsOf_append_cons parting [] text
  · have blank : isBlank c = true := loose.resolve_left fun comma => parting (.inl comma)
    obtain ⟨piece, others, shape⟩ := List.exists_cons_of_ne_nil (pieces_ne_nil text)
    rw [itemsOf, pieces_cons, if_neg parting, itemsOf, shape]
    exact itemsAmong_cons_congr (Text.trim_cons blank piece) others

theorem itemsOf_concat (loose : IsLoose c) (text : List Char) :
    itemsOf (text ++ [c]) = itemsOf text := by
  by_cases parting : IsParting c
  · rw [itemsOf_append_cons parting]
    exact List.append_nil _
  · have blank : isBlank c = true := loose.resolve_left fun comma => parting (.inl comma)
    obtain ⟨before, last, shape, longer⟩ := exists_pieces_concat parting text
    rw [itemsOf, longer, itemsOf, shape, itemsAmong_append, itemsAmong_append]
    exact congrArg _ (itemsAmong_cons_congr (Text.trim_concat blank last) [])

theorem itemsOf_gap_append {gap : List Char} (loose : ∀ c ∈ gap, IsLoose c) (text : List Char) :
    itemsOf (gap ++ text) = itemsOf text := by
  induction gap with
  | nil => rfl
  | cons c rest inductionHypothesis =>
      obtain ⟨first, others⟩ := List.forall_mem_cons.mp loose
      rw [List.cons_append, itemsOf_cons first, inductionHypothesis others]

theorem itemsOf_append_gap {gap : List Char} (loose : ∀ c ∈ gap, IsLoose c) (text : List Char) :
    itemsOf (text ++ gap) = itemsOf text := by
  induction gap generalizing text with
  | nil => rw [List.append_nil]
  | cons c rest inductionHypothesis =>
      obtain ⟨first, others⟩ := List.forall_mem_cons.mp loose
      rw [List.append_cons, inductionHypothesis others, itemsOf_concat first]

theorem itemsOf_trim (text : List Char) : itemsOf (Text.trim text) = itemsOf text := by
  have ended (text : List Char) : itemsOf (Text.trimEnd text) = itemsOf text := by
    have loose : ∀ c ∈ text.rtakeWhile isBlank, IsLoose c :=
      fun c member => .inr (List.mem_rtakeWhile_imp member)
    have whole := itemsOf_append_gap loose (Text.trimEnd text)
    rw [Text.trimEnd_eq, List.rdropWhile_append_rtakeWhile] at whole
    exact whole.symm
  have started : itemsOf (text.dropWhile isBlank) = itemsOf text := by
    have loose : ∀ c ∈ text.takeWhile isBlank, IsLoose c :=
      fun c member => .inr (List.mem_takeWhile_imp member)
    have whole := itemsOf_gap_append loose (text.dropWhile isBlank)
    rw [List.takeWhile_append_dropWhile] at whole
    exact whole.symm
  rw [Text.trim, ended, started]

/-- Blanks around a list do not count. -/
theorem splitList_strip (value : String) : splitList (Text.strip value) = splitList value := by
  rw [splitList_eq, splitList_eq, Text.strip, String.toList_ofList, itemsOf_trim]

theorem splitList_gap_append {gap : String} (isGap : IsGap gap) (text : String) :
    splitList (gap ++ text) = splitList text := by
  rw [splitList_eq, splitList_eq, String.toList_append]
  exact itemsOf_gap_append isGap text.toList

theorem splitList_append_gap {gap : String} (isGap : IsGap gap) (text : String) :
    splitList (text ++ gap) = splitList text := by
  rw [splitList_eq, splitList_eq, String.toList_append]
  exact itemsOf_append_gap isGap text.toList

theorem splitList_append_parting (parting : IsParting c) (before after : String) :
    splitList (before ++ String.singleton c ++ after) = splitList before ++ splitList after := by
  have shape : (before ++ String.singleton c ++ after).toList =
      before.toList ++ c :: after.toList := by
    simp
  rw [splitList_eq, shape, itemsOf_append_cons parting, splitList_eq, splitList_eq]

/-- A separator may be surrounded by blanks and repeated. -/
theorem splitList_append_separator {separator : String} (isSeparator : IsSeparator separator)
    (before after : String) :
    splitList (before ++ separator ++ after) = splitList before ++ splitList after := by
  obtain ⟨mark, member, parting⟩ := isSeparator.parts
  obtain ⟨early, late, shape⟩ := List.append_of_mem member
  have loose : ∀ c ∈ early ++ mark :: late, IsLoose c := by
    rw [← shape]
    exact isSeparator.gap
  have looseEarly : ∀ c ∈ early, IsLoose c :=
    fun c inside => loose c (List.mem_append_left _ inside)
  have looseLate : ∀ c ∈ late, IsLoose c :=
    fun c inside => loose c (List.mem_append_right _ (List.mem_cons_of_mem _ inside))
  have whole : (before ++ separator ++ after).toList =
      (before.toList ++ early) ++ mark :: (late ++ after.toList) := by
    rw [String.toList_append, String.toList_append, shape]
    simp
  rw [splitList_eq, whole, itemsOf_append_cons parting, itemsOf_append_gap looseEarly,
    itemsOf_gap_append looseLate, splitList_eq, splitList_eq]

theorem splitList_entry {item : String} (isEntry : IsEntry item) : splitList item = [item] := by
  have inside : ∀ c ∈ item.toList, ¬IsParting c := by
    intro c member parting
    rcases parting with rfl | rfl
    · exact isEntry.noComma member
    · exact isEntry.noFeed member
  rw [splitList_eq, itemsOf, pieces_of_not_parting inside, itemsAmong, List.map_singleton,
    Text.trim_eq_self.mpr isEntry.trimmed, String.ofList_toList]
  simp [isEntry.filled]

theorem splitList_of_gap {gap : String} (isGap : IsGap gap) : splitList gap = [] := by
  have nothing := splitList_append_gap isGap ""
  rwa [String.empty_append] at nothing

theorem isEntry_of_mem_splitList {value item : String} (member : item ∈ splitList value) :
    IsEntry item := by
  rw [splitList_eq, itemsOf, itemsAmong, List.mem_filter] at member
  obtain ⟨isTrimmed, filled⟩ := member
  obtain ⟨piece, isPiece, rfl⟩ := List.mem_map.mp isTrimmed
  have inside : ∀ c ∈ (String.ofList (Text.trim piece)).toList, ¬IsParting c := by
    intro c isThere
    rw [String.toList_ofList] at isThere
    exact not_parting_of_mem_pieces isPiece (Text.mem_of_mem_trim isThere)
  refine ⟨by simpa using filled, ?_, fun comma => inside _ comma (.inl rfl),
    fun feed => inside _ feed (.inr rfl)⟩
  rw [String.toList_ofList]
  exact Text.isTrimmed_trim piece

/-- A list is empty only when its text has nothing but commas and blanks. -/
theorem splitList_eq_nil {value : String} : splitList value = [] ↔ IsGap value := by
  constructor
  · rw [splitList_eq, IsGap]
    generalize value.toList = text
    intro nothing
    induction text with
    | nil => exact List.forall_mem_nil _
    | cons c rest inductionHypothesis =>
        have loose : IsLoose c := by
          by_contra dark
          have inside : ¬IsParting c := fun parting => dark parting.isLoose
          have notBlank : isBlank c = false := by
            rw [← Bool.not_eq_true]
            exact fun blank => dark (.inr blank)
          obtain ⟨piece, others, shape⟩ := List.exists_cons_of_ne_nil (pieces_ne_nil rest)
          have kept : Text.trim (c :: piece) ≠ [] := by
            intro empty
            have blank := Text.trim_eq_nil.mp empty c List.mem_cons_self
            exact absurd blank (Bool.not_eq_true _ ▸ notBlank)
          rw [itemsOf, pieces_cons, if_neg inside, shape] at nothing
          simp [itemsAmong, kept] at nothing
        rw [itemsOf_cons loose] at nothing
        exact List.forall_mem_cons.mpr ⟨loose, inductionHypothesis nothing⟩
  · exact splitList_of_gap

/-- Nothing is left of a text without items unless it has a comma. -/
theorem strip_eq_empty {value : String} :
    Text.strip value = "" ↔ splitList value = [] ∧ ',' ∉ value.toList := by
  have blank : Text.strip value = "" ↔ ∀ c ∈ value.toList, isBlank c = true := by
    rw [← Text.trim_eq_nil, Text.strip, ← String.toList_inj, String.toList_ofList]
    rfl
  rw [blank, splitList_eq_nil, IsGap]
  constructor
  · intro blanks
    refine ⟨fun c member => .inr (blanks c member), fun member => ?_⟩
    exact absurd (blanks ',' member) (by decide)
  · rintro ⟨gap, noComma⟩ c member
    exact (gap c member).resolve_left fun comma => noComma (comma ▸ member)

end Items

section Spelling

variable {lead separator : String} {items : List String} {entries : List (String × String)}

/-- A text that lists items, each of them together with what stands behind it. -/
def spell (lead : String) (entries : List (String × String)) : String :=
  lead ++ String.join (entries.map fun entry => entry.1 ++ entry.2)

/-- Gaps stand around the items, and those between two items part them. -/
structure Spells (lead : String) (entries : List (String × String)) : Prop where
  lead : IsGap lead
  items : ∀ entry ∈ entries, IsEntry entry.1
  gaps : ∀ entry ∈ entries, IsGap entry.2
  parted : ∀ entry ∈ entries.dropLast, ∃ c ∈ entry.2.toList, IsParting c

theorem spell_cons (entry : String × String) (rest : List (String × String)) :
    spell "" (entry :: rest) = entry.1 ++ entry.2 ++ spell "" rest := by
  simp [spell, String.append_assoc]

theorem splitList_spell (spells : Spells lead entries) :
    splitList (spell lead entries) = entries.map Prod.fst := by
  have apart : spell lead entries = lead ++ spell "" entries := by simp [spell]
  rw [apart, splitList_gap_append spells.lead]
  clear apart
  obtain ⟨-, isEntry, isGap, parted⟩ := spells
  induction entries with
  | nil => decide +kernel
  | cons entry rest inductionHypothesis =>
      obtain ⟨first, others⟩ := List.forall_mem_cons.mp isEntry
      obtain ⟨behind, gaps⟩ := List.forall_mem_cons.mp isGap
      rw [spell_cons, List.map_cons]
      cases rest with
      | nil =>
          have ended : entry.1 ++ entry.2 ++ spell "" [] = entry.1 ++ entry.2 := by simp [spell]
          rw [ended, splitList_append_gap behind, splitList_entry first]
          rfl
      | cons next more =>
          rw [List.dropLast_cons_cons] at parted
          obtain ⟨parts, later⟩ := List.forall_mem_cons.mp parted
          rw [splitList_append_separator ⟨behind, parts⟩, splitList_entry first,
            inductionHypothesis others gaps later]
          rfl

/-- Items with one separator between them are got back. -/
theorem splitList_intercalate (isSeparator : IsSeparator separator)
    (isEntry : ∀ item ∈ items, IsEntry item) :
    splitList (separator.intercalate items) = items := by
  induction items with
  | nil => exact splitList_of_gap (List.forall_mem_nil _)
  | cons item rest inductionHypothesis =>
      obtain ⟨first, others⟩ := List.forall_mem_cons.mp isEntry
      cases rest with
      | nil => rw [String.intercalate_singleton, splitList_entry first]
      | cons next more =>
          rw [String.intercalate_cons_cons, splitList_append_separator isSeparator,
            splitList_entry first, inductionHypothesis others]
          rfl

/-- The items of a list are trimmed and hold neither commas nor line feeds. At each of these a text
lists what its two sides list, and items are got back from a text that spells them, so a list that
is put together again is listed as before. -/
theorem splitList_lists :
    (∀ value, ∀ item ∈ splitList value, IsEntry item) ∧
      (∀ before after c, c = ',' ∨ c = '\n' →
        splitList (before ++ String.singleton c ++ after) =
          splitList before ++ splitList after) ∧
      (∀ lead entries, Spells lead entries →
        splitList (spell lead entries) = entries.map Prod.fst) ∧
      ∀ value separator, IsSeparator separator →
        splitList (separator.intercalate (splitList value)) = splitList value := by
  refine ⟨fun value item => isEntry_of_mem_splitList, ?_, fun lead entries => splitList_spell, ?_⟩
  · intro before after c parting
    exact splitList_append_parting parting before after
  · intro value separator isSeparator
    exact splitList_intercalate isSeparator fun item => isEntry_of_mem_splitList

/-- Items on two lines, with an empty item and blanks between them. -/
theorem splitList_lists_sample :
    Spells "\n " [("a b", " ,\n\t,"), ("c", ", ")] ∧
      splitList "\n a b ,\n\t,c, " = ["a b", "c"] ∧
      splitList "a b\nc" = splitList "a b" ++ splitList "c" ∧
      splitList (",\n".intercalate (splitList "\n a b ,\n\t,c, ")) =
        splitList "\n a b ,\n\t,c, " := by
  obtain ⟨-, joins, readsBack, again⟩ := splitList_lists
  have spells : Spells "\n " [("a b", " ,\n\t,"), ("c", ", ")] := by
    have first : IsEntry "a b" :=
      ⟨by decide, Text.strip_eq_self.mp (by decide), by decide, by decide⟩
    have second : IsEntry "c" :=
      ⟨by decide, Text.strip_eq_self.mp (by decide), by decide, by decide⟩
    have parts : ∃ c ∈ " ,\n\t,".toList, IsParting c := ⟨',', by decide, .inl rfl⟩
    refine ⟨by decide +kernel, ?_, by decide +kernel, List.forall_mem_singleton.mpr parts⟩
    simp [first, second]
  have separator : IsSeparator ",\n" := ⟨by decide +kernel, ',', by decide, .inl rfl⟩
  exact ⟨spells, readsBack _ _ spells, joins "a b" "c" '\n' (.inr rfl),
    again "\n a b ,\n\t,c, " ",\n" separator⟩

end Spelling

end AssetBundler.Config
