import AssetBundler.Proofs.Assoc
import AssetBundler.Proofs.Ini.Continuation
import AssetBundler.Proofs.Ini.Escape
import AssetBundler.Proofs.Text.Lines

/-!
Documents as text. Sections of fields are written line by line, and they are read as they were
written.
-/

namespace AssetBundler.Ini

/-- A line with its line feed. -/
structure IsLine (line : String) : Prop where
  noReturn : '\r' ∉ line.toList
  ends : ∃ text, line.toList = text ++ ['\n'] ∧ '\n' ∉ text

theorem linesWithEnds_line {text : List Char} (noFeed : '\n' ∉ text) (rest : List Char) :
    linesWithEnds ((text ++ ['\n']) ++ rest) = (text ++ ['\n']) :: linesWithEnds rest := by
  induction text with
  | nil => rfl
  | cons c others inductionHypothesis =>
      have apart : c ≠ '\n' := fun same => noFeed (same ▸ List.mem_cons_self)
      have tail := inductionHypothesis fun member => noFeed (List.mem_cons_of_mem c member)
      rw [List.cons_append, List.cons_append, linesWithEnds, if_neg apart, tail]

/-- The lines of joined lines are the lines. -/
theorem linesOf_join {lines : List String} (each : ∀ line ∈ lines, IsLine line) :
    linesOf (Utf8.encode (String.join lines)) = lines := by
  have noReturn : '\r' ∉ (String.join lines).toList := by
    rw [String.toList_join, List.mem_flatMap]
    rintro ⟨line, member, inLine⟩
    exact (each line member).noReturn inLine
  rw [linesOf_encode, Text.unifyNewlines_eq_self noReturn, String.toList_join]
  clear noReturn
  induction lines with
  | nil => rfl
  | cons line rest inductionHypothesis =>
      obtain ⟨isLine, others⟩ := List.forall_mem_cons.mp each
      obtain ⟨text, shape, noFeed⟩ := isLine.ends
      rw [List.flatMap_cons, shape, linesWithEnds_line noFeed, List.map_cons,
        inductionHypothesis others, ← shape, String.ofList_toList]

/-- A section and its fields. -/
structure Block where
  name : String
  fields : Assoc String

def headerLine (name : String) : String := "[" ++ name ++ "]\n"

def fieldLine (field : String × String) : String :=
  field.1 ++ " = " ++ escape field.2 ++ "\n"

/-- A line for the section, one for each field, and empty ones. -/
def Block.lines (gap : Nat) (block : Block) : List String :=
  headerLine block.name :: (block.fields.map fieldLine ++ List.replicate gap "\n")

def renderBlocks (gap : Nat) (blocks : List Block) : String :=
  String.join (blocks.flatMap (Block.lines gap))

/-- A value as the document holds it. -/
def shownValue (value : String) : Option String := some (escape value)

/-- The document that the text of blocks stands for. -/
def documentOf (blocks : List Block) : Document where
  sections := blocks.map fun block =>
    (block.name, Assoc.mapValues shownValue block.fields)

/-- A text on one line. -/
structure IsInline (text : String) : Prop where
  noFeed : '\n' ∉ text.toList
  noReturn : '\r' ∉ text.toList

/-- A value on one line without blanks at its ends. -/
structure IsValue (value : String) : Prop extends IsInline value where
  trimmed : Text.IsTrimmed value.toList

/-- The name of a field: small letters and lines. -/
structure IsKey (key : String) : Prop where
  filled : key ≠ ""
  small : ∀ c ∈ key.toList, ('a' ≤ c ∧ c ≤ 'z') ∨ c = '_'
  lowered : Text.lower key = key

structure Block.IsWritable (block : Block) : Prop where
  inline : IsInline block.name
  filled : block.name ≠ ""
  special : block.name ≠ defaultSection
  keys : ∀ field ∈ block.fields, IsKey field.1
  values : ∀ field ∈ block.fields, IsValue field.2
  distinct : block.fields.keys.Nodup

namespace Reader

/-- What a reader has read so far, as a document shows it. -/
structure Shows (reader : Reader) (sections : Assoc (Assoc (Option String))) : Prop where
  defaults : reader.defaults = []
  shown : Assoc.mapValues finishOptions reader.sections = sections
  named : reader.nameless = []

variable {reader : Reader} {done : Assoc (Assoc (Option String))} {name : String}

theorem finishOptions_eq (options : Assoc (Option (List String))) :
    finishOptions options = Assoc.mapValues (Option.map joinValue) options := rfl

theorem joinValue_single {value : String} (trimmed : Text.IsTrimmed value.toList) :
    joinValue [value] = value := by
  rw [joinValue, Text.joinLines, String.intercalate_singleton,
    Text.trimEnd_eq_self.mpr trimmed.last, String.ofList_toList]

/-- An empty line at the end of a value is not seen. -/
theorem joinValue_append_empty (lines : List String) :
    joinValue (lines ++ [""]) = joinValue lines := by
  cases lines with
  | nil => rfl
  | cons first rest =>
      have joined : Text.joinLines (first :: rest ++ [""]) =
          Text.joinLines (first :: rest) ++ "\n" := by
        unfold Text.joinLines
        induction rest generalizing first with
        | nil => simp
        | cons next others inductionHypothesis =>
            rw [List.cons_append, List.cons_append, String.intercalate_cons_cons,
              String.intercalate_cons_cons, ← List.cons_append, inductionHypothesis next]
            simp only [String.append_assoc]
      rw [joinValue, joined, String.toList_append]
      exact congrArg String.ofList (Text.trimEnd_concat rfl _)

theorem not_blank_of_small {c : Char} (small : ('a' ≤ c ∧ c ≤ 'z') ∨ c = '_') :
    Text.isBlank c = false ∧ isDelimiter c = false ∧ c ≠ '[' ∧ c ≠ '#' ∧ c ≠ ';' ∧ c ≠ '\n' ∧
      c ≠ '\r' := by
  have code : (97 ≤ c.toNat ∧ c.toNat ≤ 122) ∨ c.toNat = 95 := by
    rcases small with ⟨least, most⟩ | rfl
    · exact .inl ⟨least, most⟩
    · exact .inr rfl
  have apart {d : Char} (other : ¬ ((97 ≤ d.toNat ∧ d.toNat ≤ 122) ∨ d.toNat = 95)) : c ≠ d := by
    rintro rfl
    exact other code
  refine ⟨?_, ?_, apart (by decide), apart (by decide), apart (by decide), apart (by decide),
    apart (by decide)⟩
  · simp only [Text.isBlank, Bool.or_eq_false_iff, Bool.and_eq_false_iff, decide_eq_false_iff_not,
      beq_eq_false_iff_ne]
    omega
  · simp [isDelimiter, apart (d := '=') (by decide), apart (d := ':') (by decide)]

section Lines

variable {text : List Char}

theorem trim_of_line {line : String} (shape : line.toList = text ++ ['\n'])
    (trimmed : Text.IsTrimmed text) : Text.trim line.toList = text := by
  rw [shape, Text.trim_concat rfl, Text.trim_eq_self.mpr trimmed]

theorem toList_headerLine (name : String) :
    (headerLine name).toList = ('[' :: (name.toList ++ [']'])) ++ ['\n'] := by
  simp [headerLine]

theorem trim_headerLine (name : String) :
    Text.trim (headerLine name).toList = '[' :: (name.toList ++ [']']) := by
  refine trim_of_line (toList_headerLine name) ⟨?_, ?_⟩
  · rintro c ⟨⟩
    rfl
  · intro c last
    have isBracket : c = ']' := by simpa [List.getLast?_cons, List.getLast?_append] using last.symm
    rw [isBracket]
    rfl

theorem header?_headerLine (filled : name ≠ "") :
    header? (Text.trim (headerLine name).toList) = some name.toList := by
  have some_ : name.toList.isEmpty = false := by simpa using filled
  rw [trim_headerLine]
  simp [header?, some_]

theorem starts_headerLine (name : String) :
    ¬ IsIdle (headerLine name) ∧ indentOf (headerLine name) = 0 := by
  constructor
  · simp [IsIdle, trim_headerLine, isComment]
  · rw [indentOf, toList_headerLine]
    rfl

end Lines

/-- The header of a new section is read. -/
theorem addLine_headerLine (number : Nat) (shows : reader.Shows done) (filled : name ≠ "")
    (special : name ≠ defaultSection) (isNew : name ∉ done.keys) :
    ∃ next, reader.addLine number (headerLine name) = .ok next ∧
      next.Shows (done ++ [(name, [])]) ∧ next.current = some name ∧ next.indent = 0 := by
  obtain ⟨speaks, indent⟩ := starts_headerLine name
  have read : reader.addLine number (headerLine name) =
      openSection { reader with indent := 0 } number name := by
    cases inside : reader.current with
    | none =>
        rw [addLine_outside speaks inside, header?_headerLine filled, indent]
        simp only [String.ofList_toList, inside]
    | some other =>
        have starts : ¬ reader.Continues (headerLine name) := by
          rintro ⟨-, deeper⟩
          rw [indent] at deeper
          exact Nat.not_lt_zero _ deeper
        rw [addLine_starts speaks inside starts, header?_headerLine filled, indent]
        simp only [String.ofList_toList, inside]
  have absent : name ∉ reader.sections.keys := by
    rwa [← Assoc.keys_mapValues finishOptions, shows.shown]
  have unknown : Assoc.contains reader.sections name = false := by
    rw [Assoc.contains, Assoc.find?_eq_none.mpr absent]
    rfl
  rw [read, openSection, unknown, if_neg Bool.false_ne_true]
  simp only [if_neg special]
  refine ⟨_, rfl, ⟨shows.defaults, ?_, shows.named⟩, rfl, rfl⟩
  rw [Assoc.mapValues_insert, shows.shown]
  exact Assoc.insert_of_not_mem _ isNew

/-- The section that is read, as the reader has it. -/
theorem Shows.options {fields : Assoc (Option String)}
    (shows : reader.Shows (done ++ [(name, fields)])) (special : name ≠ defaultSection)
    (isNew : name ∉ done.keys) : finishOptions (reader.options name) = fields := by
  have found : Assoc.find? (done ++ [(name, fields)]) name = some fields := by
    rw [Assoc.find?_append_of_not_mem isNew]
    exact if_pos rfl
  rw [← shows.shown, Assoc.find?_mapValues, Option.map_eq_some_iff] at found
  obtain ⟨options, found, finished⟩ := found
  rw [Reader.options, if_neg special, found]
  exact finished

/-- A value that is given is shown in the section that is read. -/
theorem Shows.setOption {fields : Assoc (Option String)}
    (shows : reader.Shows (done ++ [(name, fields)])) (special : name ≠ defaultSection)
    (isNew : name ∉ done.keys) (option : String) (value : Option (List String)) :
    (reader.setOption name option value).Shows
      (done ++ [(name, fields.insert option (value.map joinValue))]) := by
  have options := shows.options special isNew
  rw [Reader.setOption, if_neg special]
  refine ⟨shows.defaults, ?_, shows.named⟩
  rw [Assoc.mapValues_insert, shows.shown, Assoc.insert_last _ _ isNew]
  have finished : finishOptions (Assoc.insert (reader.options name) option value) =
      fields.insert option (value.map joinValue) := by
    rw [← options]
    exact Assoc.mapValues_insert _ _ _ _
  rw [finished]

/-- An empty line changes nothing that is shown. -/
theorem addLine_empty {fields : Assoc (Option String)} (number : Nat)
    (shows : reader.Shows (done ++ [(name, fields)])) (special : name ≠ defaultSection)
    (isNew : name ∉ done.keys) (inside : reader.current = some name) :
    ∃ next, reader.addLine number "\n" = .ok next ∧ next.Shows (done ++ [(name, fields)]) ∧
      next.current = some name ∧ next.indent = reader.indent := by
  have read : reader.addLine number "\n" = .ok reader.addEmptyLine := rfl
  refine ⟨_, read, ?_⟩
  unfold addEmptyLine
  simp only [inside]
  split
  · exact ⟨shows, inside, rfl⟩
  · split
    · next lines found =>
      have shown := shows.setOption special isNew reader.option (some (lines ++ [""]))
      have same : fields.insert reader.option (some (joinValue lines)) = fields := by
        refine Assoc.insert_of_find? ?_
        rw [← shows.options special isNew]
        refine (Assoc.find?_mapValues _ _ _).trans ?_
        rw [found]
        rfl
      rw [Option.map_some, joinValue_append_empty, same] at shown
      exact ⟨shown, (current_setOption _ _ _ _).trans inside, indent_setOption _ _ _ _⟩
    · exact ⟨shows, inside, rfl⟩

section Fields

variable {key value : String}

theorem toList_fieldLine (key value : String) :
    (fieldLine (key, value)).toList =
      (key.toList ++ ' ' :: '=' :: ' ' :: (escape value).toList) ++ ['\n'] := by
  simp [fieldLine]

/-- The text of a field without the blanks at its ends. -/
def fieldText (key value : String) : List Char :=
  key.toList ++ ' ' :: '=' :: if value = "" then [] else ' ' :: (escape value).toList

theorem exists_first (isKey : IsKey key) : ∃ c rest, key.toList = c :: rest ∧
    (('a' ≤ c ∧ c ≤ 'z') ∨ c = '_') := by
  cases shape : key.toList with
  | nil => exact absurd (String.toList_eq_nil_iff.mp shape) isKey.filled
  | cons c rest => exact ⟨c, rest, rfl, isKey.small c (shape ▸ List.mem_cons_self)⟩

theorem trim_fieldLine (isKey : IsKey key) (isValue : IsValue value) :
    Text.trim (fieldLine (key, value)).toList = fieldText key value := by
  obtain ⟨c, rest, shape, small⟩ := exists_first isKey
  have first : ∀ more, ∀ d ∈ (key.toList ++ more).head?, Text.isBlank d = false := by
    rintro more d start
    rw [shape, List.cons_append, List.head?_cons] at start
    cases start
    exact (not_blank_of_small small).1
  rw [fieldText]
  split
  · next empty =>
    subst empty
    have blankEnd : (fieldLine (key, "")).toList =
        ((key.toList ++ [' ', '=']) ++ [' ']) ++ ['\n'] := by
      rw [toList_fieldLine]
      simp [escape]
    rw [blankEnd, Text.trim_concat rfl, Text.trim_concat rfl]
    refine Text.trim_eq_self.mpr ⟨first _, ?_⟩
    intro d last
    have isEqual : d = '=' := by simpa [List.getLast?_append] using last.symm
    rw [isEqual]
    rfl
  · next filled =>
    refine trim_of_line (toList_fieldLine key value) ⟨first _, ?_⟩
    intro d last
    refine (isTrimmed_escape isValue.trimmed).last d ?_
    have some_ : value.toList ≠ [] := fun empty => filled (String.toList_eq_nil_iff.mp empty)
    have isLast := List.getLast?_eq_getLast_of_ne_nil some_
    simpa [List.getLast?_append, List.getLast?_cons, getLast?_escape, isLast] using last

theorem splitOption_fieldText (isKey : IsKey key) (isValue : IsValue value) :
    splitOption (fieldText key value) = (key.toList, some (escape value).toList) := by
  have name : ∀ c ∈ key.toList ++ [' '], (!isDelimiter c) = true := by
    intro c member
    rcases List.mem_append.mp member with inKey | isSpace
    · rw [(not_blank_of_small (isKey.small c inKey)).2.1]
      rfl
    · cases List.mem_singleton.mp isSpace
      rfl
  have trimmed : ∀ c ∈ key.toList.getLast?, Text.isBlank c = false := fun c last =>
    (not_blank_of_small (isKey.small c (List.mem_of_mem_getLast? last))).1
  have shape (more : List Char) :
      key.toList ++ ' ' :: '=' :: more = (key.toList ++ [' ']) ++ '=' :: more := by simp
  have before (more : List Char) :
      (key.toList ++ ' ' :: '=' :: more).takeWhile (fun c => !isDelimiter c) =
        key.toList ++ [' '] := by
    rw [shape, List.takeWhile_append_of_pos name]
    simp [isDelimiter]
  have behind (more : List Char) :
      (key.toList ++ ' ' :: '=' :: more).dropWhile (fun c => !isDelimiter c) = '=' :: more := by
    rw [shape, List.dropWhile_append_of_pos name]
    simp [isDelimiter]
  simp only [splitOption, fieldText, before, behind, Text.trimEnd_concat (c := ' ') rfl,
    Text.trimEnd_eq_self.mpr trimmed]
  split
  · next empty =>
    subst empty
    rfl
  · rw [Text.trim_cons rfl, Text.trim_eq_self.mpr (isTrimmed_escape isValue.trimmed)]

theorem starts_fieldLine (isKey : IsKey key) (isValue : IsValue value) :
    ¬ IsIdle (fieldLine (key, value)) ∧ indentOf (fieldLine (key, value)) = 0 ∧
      header? (fieldText key value) = none := by
  obtain ⟨c, rest, shape, small⟩ := exists_first isKey
  obtain ⟨dark, -, noBracket, noHash, noSemicolon, -⟩ := not_blank_of_small small
  refine ⟨?_, ?_, ?_⟩
  · rw [IsIdle, trim_fieldLine isKey isValue, fieldText, shape]
    simp [isComment, noHash, noSemicolon]
  · rw [indentOf, toList_fieldLine, shape]
    simp [dark]
  · rw [fieldText, shape]
    simp only [List.cons_append, header?]
    split
    · next same => cases same; exact absurd rfl noBracket
    · rfl

/-- The line of a new field is read. -/
theorem addLine_fieldLine {fields : Assoc (Option String)} (number : Nat)
    (shows : reader.Shows (done ++ [(name, fields)])) (special : name ≠ defaultSection)
    (isNew : name ∉ done.keys) (inside : reader.current = some name) (indent : reader.indent = 0)
    (isKey : IsKey key) (isValue : IsValue value) (absent : key ∉ fields.keys) :
    ∃ next, reader.addLine number (fieldLine (key, value)) = .ok next ∧
      next.Shows (done ++ [(name, fields ++ [(key, some (escape value))])]) ∧
      next.current = some name ∧ next.indent = 0 := by
  obtain ⟨speaks, flush, noHeader⟩ := starts_fieldLine isKey isValue
  have starts : ¬ reader.Continues (fieldLine (key, value)) := by
    rintro ⟨-, deeper⟩
    rw [flush] at deeper
    exact Nat.not_lt_zero _ deeper
  have same : { reader with indent := 0 } = reader := by rw [← indent]
  have unknown : Assoc.contains (reader.options name) key = false := by
    have missing : key ∉ (reader.options name).keys := by
      rw [← Assoc.keys_mapValues (Option.map joinValue), ← finishOptions_eq,
        shows.options special isNew]
      exact absent
    rw [Assoc.contains, Assoc.find?_eq_none.mpr missing]
    rfl
  rw [addLine_starts speaks inside starts, trim_fieldLine isKey isValue, noHeader, flush]
  have filled : key.toList.isEmpty = false := by simpa using isKey.filled
  simp only [same, addOption, splitOption_fieldText isKey isValue, String.ofList_toList,
    isKey.lowered, unknown, filled, Bool.false_eq_true, if_false, Option.map_some]
  have shown := shows.setOption special isNew key (some [escape value])
  rw [Assoc.insert_of_not_mem _ absent, Option.map_some,
    joinValue_single (isTrimmed_escape isValue.trimmed)] at shown
  have stays := (current_setOption reader name key (some [escape value])).trans inside
  have flat := (indent_setOption reader name key (some [escape value])).trans indent
  exact ⟨_, rfl, ⟨shown.defaults, shown.shown, shown.named⟩, stays, flat⟩

end Fields

section Runs

theorem addLines_cons {line : String} {next : Reader} {number : Nat} (rest : List String)
    (read : reader.addLine number line = .ok next) :
    reader.addLines number (line :: rest) = next.addLines (number + 1) rest := by
  rw [addLines, read]
  rfl

theorem addLines_append {first : List String} {next : Reader} {number : Nat}
    (rest : List String)
    (read : reader.addLines number first = .ok next) :
    reader.addLines number (first ++ rest) = next.addLines (number + first.length) rest := by
  induction first generalizing reader number with
  | nil =>
      cases read
      rfl
  | cons line others inductionHypothesis =>
      obtain ⟨middle, one, more⟩ := Outcome.bind_eq_ok.mp read
      rw [List.cons_append, addLines_cons _ one, inductionHypothesis more, List.length_cons,
        Nat.add_right_comm, Nat.add_assoc]

/-- A reader inside a section, with what it shows. -/
structure IsInside (reader : Reader) (done : Assoc (Assoc (Option String))) (name : String)
    (fields : Assoc (Option String)) : Prop extends
    reader.Shows (done ++ [(name, fields)]) where
  current : reader.current = some name
  flat : reader.indent = 0

variable {fields : Assoc (Option String)}

theorem addLines_gap (number : Nat) (special : name ≠ defaultSection)
    (isNew : name ∉ done.keys) (gap : Nat) (inside : reader.IsInside done name fields) :
    ∃ next, reader.addLines number (List.replicate gap "\n") = .ok next ∧
      next.IsInside done name fields := by
  induction gap generalizing reader number with
  | zero => exact ⟨reader, rfl, inside⟩
  | succ gap inductionHypothesis =>
      obtain ⟨next, read, shows, current, indent⟩ :=
        addLine_empty number inside.toShows special isNew inside.current
      obtain ⟨last, reads, done⟩ := inductionHypothesis (number + 1)
        ⟨shows, current, indent.trans inside.flat⟩
      exact ⟨last, (addLines_cons _ read).trans reads, done⟩

/-- The fields of a section are read one after another. -/
theorem addLines_fields (number : Nat) (special : name ≠ defaultSection)
    (isNew : name ∉ done.keys) (read fields : Assoc String) (keys : ∀ field ∈ fields, IsKey field.1)
    (values : ∀ field ∈ fields, IsValue field.2) (distinct : (read ++ fields).keys.Nodup)
    (inside : reader.IsInside done name (Assoc.mapValues shownValue read)) :
    ∃ next, reader.addLines number (fields.map fieldLine) = .ok next ∧
      next.IsInside done name
        (Assoc.mapValues shownValue (read ++ fields)) := by
  induction fields generalizing reader number read with
  | nil => exact ⟨reader, rfl, by rwa [List.append_nil]⟩
  | cons field rest inductionHypothesis =>
      obtain ⟨key, value⟩ := field
      have absent : key ∉ read.keys := by
        rw [Assoc.keys, List.map_append, List.nodup_append] at distinct
        exact fun isOld => distinct.2.2 _ isOld _ List.mem_cons_self rfl
      obtain ⟨isKey, otherKeys⟩ := List.forall_mem_cons.mp keys
      obtain ⟨isValue, otherValues⟩ := List.forall_mem_cons.mp values
      obtain ⟨next, one, shows, current, flat⟩ :=
        addLine_fieldLine number inside.toShows special isNew inside.current
          inside.flat isKey isValue (by rwa [Assoc.keys_mapValues])
      have same : read ++ (key, value) :: rest = (read ++ [(key, value)]) ++ rest := by simp
      rw [same] at distinct ⊢
      have shown : Assoc.mapValues shownValue (read ++ [(key, value)]) =
          Assoc.mapValues shownValue read ++ [(key, some (escape value))] := by
        simp [Assoc.mapValues, shownValue]
      rw [← shown] at shows
      obtain ⟨last, reads, done⟩ := inductionHypothesis (number + 1) _ otherKeys
        otherValues distinct ⟨shows, current, flat⟩
      exact ⟨last, (addLines_cons _ one).trans reads, done⟩

/-- A section is read behind others. -/
theorem addLines_block {block : Block} (number gap : Nat) (writable : block.IsWritable)
    (shows : reader.Shows done) (isNew : block.name ∉ done.keys) :
    ∃ next, reader.addLines number (block.lines gap) = .ok next ∧
      next.Shows (done ++
        [(block.name, Assoc.mapValues shownValue block.fields)]) := by
  obtain ⟨opened, header, starts, current, flat⟩ :=
    addLine_headerLine number shows writable.filled writable.special isNew
  obtain ⟨filled, reads, inside⟩ :=
    addLines_fields (number + 1) writable.special isNew [] block.fields
    writable.keys writable.values writable.distinct ⟨starts, current, flat⟩
  obtain ⟨last, ends, inside⟩ := addLines_gap
    (number + 1 + (block.fields.map fieldLine).length) writable.special isNew gap inside
  refine ⟨last, ?_, inside.toShows⟩
  rw [Block.lines, addLines_cons _ header, addLines_append _ reads, ends]

/-- Sections with distinct names are read one after another. -/
theorem addLines_blocks (number gap : Nat) (blocks : List Block)
    (writable : ∀ block ∈ blocks, block.IsWritable)
    (distinct : (done.keys ++ blocks.map Block.name).Nodup) (shows : reader.Shows done) :
    ∃ next, reader.addLines number (blocks.flatMap (Block.lines gap)) = .ok next ∧
      next.Shows (done ++ (documentOf blocks).sections) := by
  induction blocks generalizing reader number done with
  | nil => exact ⟨reader, rfl, by simpa [documentOf] using shows⟩
  | cons block rest inductionHypothesis =>
      obtain ⟨isWritable, others⟩ := List.forall_mem_cons.mp writable
      have isNew : block.name ∉ done.keys := by
        rw [List.nodup_append] at distinct
        exact fun isOld => distinct.2.2 _ isOld _ List.mem_cons_self rfl
      obtain ⟨next, read, shown⟩ := addLines_block number gap isWritable shows isNew
      obtain ⟨last, reads, ends⟩ := inductionHypothesis
        (number + (block.lines gap).length) others
        (by simpa [Assoc.keys, List.append_assoc] using distinct) shown
      refine ⟨last, ?_, ?_⟩
      · rw [List.flatMap_cons, addLines_append _ read, reads]
      · simpa [documentOf, List.append_assoc] using ends

end Runs

end Reader

/-- Sections are parsed as they were written. -/
theorem parse_blocks (gap : Nat) {blocks : List Block}
    (writable : ∀ block ∈ blocks, block.IsWritable) (distinct : (blocks.map Block.name).Nodup) :
    parse (blocks.flatMap (Block.lines gap)) = .ok (documentOf blocks) := by
  have start : Reader.Shows {} [] := ⟨rfl, rfl, rfl⟩
  obtain ⟨reader, read, shows⟩ :=
    Reader.addLines_blocks 1 gap blocks writable (by simpa [Assoc.keys] using distinct) start
  rw [parse, read]
  have named : reader.nameless.isEmpty = true := by rw [shows.named]; rfl
  have shown := shows.shown
  rw [List.nil_append] at shown
  simp only [bind, Except.bind, Reader.finish, named, if_true, shows.defaults]
  exact congrArg (fun sections => Except.ok (⟨[], sections⟩ : Document)) shown

theorem isLine_headerLine {name : String} (inline : IsInline name) : IsLine (headerLine name) := by
  have shape := Reader.toList_headerLine name
  refine ⟨?_, _, shape, ?_⟩
  · rw [shape]
    simp [inline.noReturn]
  · simp [inline.noFeed]

theorem isLine_fieldLine {key value : String} (isKey : IsKey key) (inline : IsInline value) :
    IsLine (fieldLine (key, value)) := by
  have shape := Reader.toList_fieldLine key value
  have keyFeed : '\n' ∉ key.toList := fun member =>
    (Reader.not_blank_of_small (isKey.small _ member)).2.2.2.2.2.1 rfl
  have keyReturn : '\r' ∉ key.toList := fun member =>
    (Reader.not_blank_of_small (isKey.small _ member)).2.2.2.2.2.2 rfl
  refine ⟨?_, _, shape, ?_⟩
  · rw [shape]
    simp [keyReturn, mem_escape, inline.noReturn]
  · simp [keyFeed, mem_escape, inline.noFeed]

theorem isLine_of_mem_lines {gap : Nat} {block : Block} (writable : block.IsWritable) :
    ∀ line ∈ block.lines gap, IsLine line := by
  rw [Block.lines, List.forall_mem_cons, List.forall_mem_append]
  refine ⟨isLine_headerLine writable.inline, ?_, ?_⟩
  · rw [List.forall_mem_map]
    exact fun field member =>
      isLine_fieldLine (writable.keys field member) (writable.values field member).toIsInline
  · intro line member
    rw [List.eq_of_mem_replicate member]
    exact ⟨by decide, [], rfl, by simp⟩

/-- The text of sections is read as the document that it stands for. -/
theorem ofBytes_renderBlocks (gap : Nat) {blocks : List Block}
    (writable : ∀ block ∈ blocks, block.IsWritable) (distinct : (blocks.map Block.name).Nodup) :
    ofBytes (Utf8.encode (renderBlocks gap blocks)) = .ok (documentOf blocks) := by
  have lines : linesOf (Utf8.encode (renderBlocks gap blocks)) =
      blocks.flatMap (Block.lines gap) := by
    refine linesOf_join fun line member => ?_
    obtain ⟨block, isBlock, inBlock⟩ := List.mem_flatMap.mp member
    exact isLine_of_mem_lines (writable block isBlock) line inBlock
  rw [ofBytes_encode, lines, parse_blocks gap writable distinct]

end AssetBundler.Ini
