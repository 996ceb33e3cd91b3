import AssetBundler.Proofs.Failure.Outcome
import AssetBundler.Proofs.Text.Blank
import AssetBundler.Proofs.Text.Utf8

/-!
Lines that continue a value. A line that is indented deeper than an option continues it, and when
the option was only named there is no value to continue.
-/

namespace AssetBundler

namespace Text

theorem lower_ne_empty {text : List Char} (filled : text ≠ []) :
    lower (String.ofList text) ≠ "" := by
  cases text with
  | nil => exact absurd rfl filled
  | cons c rest =>
      simp only [lower, String.toList_ofList, lowerAfter]
      split_ifs <;> simp [← String.toList_inj]

end Text

namespace Ini

/-- A line that says nothing: it is blank or a comment. -/
def IsIdle (line : String) : Prop :=
  Text.trim line.toList = [] ∨ Reader.isComment (Text.trim line.toList) = true

/-- How deep a line is indented. -/
def indentOf (line : String) : Nat := (line.toList.takeWhile Text.isBlank).length

namespace Reader

/-- A line of this depth continues the value of the current option. -/
def Continues (reader : Reader) (line : String) : Prop :=
  reader.option ≠ "" ∧ reader.indent < indentOf line

/-- The current option is one of the current section. -/
def IsSettled (reader : Reader) : Prop :=
  reader.option ≠ "" → ∃ name value, reader.current = some name ∧
    Assoc.find? (reader.options name) reader.option = some value

/-- The current option was given without a value. -/
def IsBare (reader : Reader) : Prop :=
  reader.option ≠ "" ∧ ∃ name, reader.current = some name ∧
    Assoc.find? (reader.options name) reader.option = some none

/-- A line that gives an option without a value. -/
structure NamesBare (reader : Reader) (line : String) : Prop where
  speaks : ¬ IsIdle line
  inside : reader.current ≠ none
  starts : ¬ reader.Continues line
  noHeader : header? (Text.trim line.toList) = none
  noDelimiter : ∀ c ∈ Text.trim line.toList, isDelimiter c = false

section Steps

variable {reader next : Reader} {line : String} {number : Nat} {name : String}

theorem addLine_idle (reader : Reader) (number : Nat) (idle : IsIdle line) :
    reader.addLine number line = .ok reader.addEmptyLine ∨
      reader.addLine number line = .ok reader := by
  unfold addLine
  rcases idle with blank | comment
  · simp [blank]
  · simp only [comment]
    split
    · exact .inl rfl
    · exact .inr rfl

theorem addLine_continues (speaks : ¬ IsIdle line) (inside : reader.current = some name)
    (continues : reader.Continues line) :
    reader.addLine number line = reader.addContinuation name (Text.trim line.toList) := by
  simp only [IsIdle, not_or] at speaks
  simp only [addLine, List.isEmpty_iff, speaks.1, speaks.2, if_false, Bool.false_eq_true, inside]
  exact if_pos continues

/-- A line that starts something of its own. -/
theorem addLine_starts (speaks : ¬ IsIdle line) (inside : reader.current = some name)
    (starts : ¬ reader.Continues line) :
    reader.addLine number line =
      match header? (Text.trim line.toList) with
      | some inner =>
          openSection { reader with indent := indentOf line } number (String.ofList inner)
      | none => addOption { reader with indent := indentOf line } number line name
          (Text.trim line.toList) := by
  simp only [IsIdle, not_or] at speaks
  simp only [addLine, List.isEmpty_iff, speaks.1, speaks.2, if_false, Bool.false_eq_true, inside]
  exact if_neg starts

/-- Outside of all sections only a header can be read. -/
theorem addLine_outside (speaks : ¬ IsIdle line) (outside : reader.current = none) :
    reader.addLine number line =
      match header? (Text.trim line.toList) with
      | some inner =>
          openSection { reader with indent := indentOf line } number (String.ofList inner)
      | none => .error (.missingHeader number line) := by
  simp only [IsIdle, not_or] at speaks
  simp only [addLine, List.isEmpty_iff, speaks.1, speaks.2, if_false, Bool.false_eq_true, outside]
  rfl

theorem options_setOption (reader : Reader) (name option : String) (value : Option (List String)) :
    (reader.setOption name option value).options name =
      Assoc.insert (reader.options name) option value := by
  unfold setOption
  split
  · next same => simp [options, same]
  · next apart => simp [options, apart, Assoc.find?_insert]

theorem current_setOption (reader : Reader) (name option : String) (value : Option (List String)) :
    (reader.setOption name option value).current = reader.current := by
  unfold setOption
  split <;> rfl

theorem option_setOption (reader : Reader) (name option : String) (value : Option (List String)) :
    (reader.setOption name option value).option = reader.option := by
  unfold setOption
  split <;> rfl

theorem indent_setOption (reader : Reader) (name option : String) (value : Option (List String)) :
    (reader.setOption name option value).indent = reader.indent := by
  unfold setOption
  split <;> rfl

/-- An option of the current section that is given a value is settled and not bare. -/
theorem settled_setOption (inside : reader.current = some name) (value : Option (List String)) :
    (reader.setOption name reader.option value).IsSettled ∧
      ((reader.setOption name reader.option value).IsBare → value = none) := by
  have found : Assoc.find? ((reader.setOption name reader.option value).options name)
      reader.option = some value := by
    rw [options_setOption, Assoc.find?_insert, if_pos rfl]
  constructor
  · intro _
    rw [current_setOption, option_setOption]
    exact ⟨name, value, inside, found⟩
  · rintro ⟨-, other, isInside, bare⟩
    rw [current_setOption, inside] at isInside
    cases isInside
    rw [option_setOption, found] at bare
    exact Option.some.inj bare

theorem addEmptyLine_of_isBare (bare : reader.IsBare) : reader.addEmptyLine = reader := by
  obtain ⟨filled, name, inside, found⟩ := bare
  simp [addEmptyLine, inside, filled, found]

theorem settled_addEmptyLine (settled : reader.IsSettled) :
    reader.addEmptyLine.IsSettled ∧
      (reader.addEmptyLine.IsBare → reader.addEmptyLine = reader) := by
  unfold addEmptyLine
  split
  · exact ⟨settled, fun _ => rfl⟩
  · next name inside =>
    split
    · exact ⟨settled, fun _ => rfl⟩
    · split
      · obtain ⟨isSettled, bare⟩ := settled_setOption inside (some _)
        exact ⟨isSettled, fun isBare => absurd (bare isBare) (by simp)⟩
      · exact ⟨settled, fun _ => rfl⟩

theorem addContinuation_ok {text : List Char} (inside : reader.current = some name)
    (read : reader.addContinuation name text = .ok next) : next.IsSettled ∧ ¬ next.IsBare := by
  unfold addContinuation at read
  split at read
  · cases read
    obtain ⟨isSettled, bare⟩ := settled_setOption inside (some _)
    exact ⟨isSettled, fun isBare => absurd (bare isBare) (by simp)⟩
  · cases read

theorem openSection_ok {start : Reader} (read : start.openSection number name = .ok next) :
    next.IsSettled ∧ ¬ next.IsBare := by
  have fresh : next.option = "" := by
    unfold openSection at read
    split at read
    · cases read
    · simp only at read
      split at read <;> cases read <;> rfl
  exact ⟨fun filled => absurd fresh filled, fun bare => bare.1 fresh⟩

theorem splitOption_value_eq_none {text : List Char} :
    (splitOption text).2 = none ↔ ∀ c ∈ text, isDelimiter c = false := by
  unfold splitOption
  simp only
  split
  · next rest => simpa [List.dropWhile_eq_nil_iff] using rest
  · next rest =>
    simp only [reduceCtorEq, false_iff]
    intro clean
    have nothing : text.dropWhile (fun c => !isDelimiter c) = [] := by
      simpa [List.dropWhile_eq_nil_iff] using clean
    rw [nothing] at rest
    cases rest

/-- A text without a delimiter is a name as a whole. -/
theorem splitOption_label {text : List Char} (trimmed : Text.trim text = text)
    (clean : ∀ c ∈ text, isDelimiter c = false) : (splitOption text).1 = text := by
  have whole : text.takeWhile (fun c => !isDelimiter c) = text := by
    rw [List.takeWhile_eq_self_iff]
    simpa using clean
  have kept : Text.trimEnd text = text :=
    Text.trimEnd_eq_self.mpr (Text.trim_eq_self.mp trimmed).last
  unfold splitOption
  simp only [whole, kept]
  split <;> rfl

theorem addOption_ok (start : Reader) {text : List Char} (inside : start.current = some name)
    (read : start.addOption number line name text = .ok next) :
    next.IsSettled ∧ next.indent = start.indent ∧ next.current = some name ∧
      next.option = Text.lower (String.ofList (splitOption text).1) ∧
      Assoc.find? (next.options name) next.option =
        some ((splitOption text).2.map fun value => [String.ofList value]) := by
  simp only [addOption] at read
  split at read
  · cases read
  · cases read
    have found := options_setOption start name (Text.lower (String.ofList (splitOption text).1))
      ((splitOption text).2.map fun value => [String.ofList value])
    have held : Assoc.find? ((start.setOption name (Text.lower (String.ofList (splitOption text).1))
        ((splitOption text).2.map fun value => [String.ofList value])).options name)
          (Text.lower (String.ofList (splitOption text).1)) =
        some ((splitOption text).2.map fun value => [String.ofList value]) := by
      rw [found, Assoc.find?_insert, if_pos rfl]
    refine ⟨fun _ => ⟨name, _, ?_, held⟩, indent_setOption _ _ _ _, ?_, rfl, held⟩
    all_goals exact (current_setOption _ _ _ _).trans inside

/-- What a line makes of a reader: it keeps an option without a value, or gives one. -/
theorem addLine_ok (settled : reader.IsSettled) (read : reader.addLine number line = .ok next) :
    next.IsSettled ∧ (next.IsBare →
      (IsIdle line ∧ next = reader) ∨ (reader.NamesBare line ∧ next.indent = indentOf line)) := by
  by_cases idle : IsIdle line
  · rcases reader.addLine_idle number idle with skipped | skipped
    · rw [skipped] at read
      cases read
      obtain ⟨isSettled, same⟩ := settled_addEmptyLine settled
      exact ⟨isSettled, fun bare => .inl ⟨idle, same bare⟩⟩
    · rw [skipped] at read
      cases read
      exact ⟨settled, fun _ => .inl ⟨idle, rfl⟩⟩
  · cases inside : reader.current with
    | none =>
        rw [addLine_outside idle inside] at read
        split at read
        · obtain ⟨isSettled, notBare⟩ := openSection_ok read
          exact ⟨isSettled, fun bare => absurd bare notBare⟩
        · cases read
    | some name =>
        by_cases continues : reader.Continues line
        · rw [addLine_continues idle inside continues] at read
          obtain ⟨isSettled, notBare⟩ := addContinuation_ok inside read
          exact ⟨isSettled, fun bare => absurd bare notBare⟩
        · rw [addLine_starts idle inside continues] at read
          split at read
          · obtain ⟨isSettled, notBare⟩ := openSection_ok read
            exact ⟨isSettled, fun bare => absurd bare notBare⟩
          · next noHeader =>
            obtain ⟨isSettled, indented, stays, -, found⟩ :=
              addOption_ok { reader with indent := indentOf line } inside read
            have isInside : reader.current ≠ none := by simp [inside]
            refine ⟨isSettled, fun bare =>
              .inr ⟨⟨idle, isInside, continues, noHeader, ?_⟩, indented⟩⟩
            obtain ⟨-, other, isInside, valueless⟩ := bare
            rw [stays] at isInside
            cases isInside
            rw [found] at valueless
            exact splitOption_value_eq_none.mp (by simpa using valueless)

/-- A line that names an option without a value leaves it bare. -/
theorem isBare_of_namesBare (names : reader.NamesBare line)
    (read : reader.addLine number line = .ok next) :
    next.IsBare ∧ next.indent = indentOf line := by
  obtain ⟨name, inside⟩ := Option.ne_none_iff_exists'.mp names.inside
  rw [addLine_starts names.speaks inside names.starts, names.noHeader] at read
  obtain ⟨-, indented, stays, option, found⟩ :=
    addOption_ok { reader with indent := indentOf line } inside read
  have trimmed : Text.trim (Text.trim line.toList) = Text.trim line.toList :=
    Text.trim_eq_self.mpr (Text.isTrimmed_trim _)
  have filled : Text.trim line.toList ≠ [] := fun nothing => names.speaks (.inl nothing)
  rw [splitOption_value_eq_none.mpr names.noDelimiter] at found
  refine ⟨⟨?_, name, stays, found⟩, indented⟩
  rw [option, splitOption_label trimmed names.noDelimiter]
  exact Text.lower_ne_empty filled

theorem openSection_not_continued (start : Reader) :
    start.openSection number name ≠ .error .continuedName := by
  unfold openSection
  split
  · simp
  · simp only
    split <;> simp

theorem addOption_not_continued (start : Reader) (text : List Char) :
    start.addOption number line name text ≠ .error .continuedName := by
  simp only [addOption]
  split <;> simp

/-- The fault of a line that continues an option without a value. -/
theorem addLine_continued_iff (settled : reader.IsSettled) :
    reader.addLine number line = .error .continuedName ↔
      reader.IsBare ∧ ¬ IsIdle line ∧ reader.indent < indentOf line := by
  constructor
  · intro refused
    have speaks : ¬ IsIdle line := by
      intro idle
      rcases reader.addLine_idle number idle with skipped | skipped <;>
        · rw [skipped] at refused
          cases refused
    cases inside : reader.current with
    | none =>
        rw [addLine_outside speaks inside] at refused
        split at refused
        · exact absurd refused (openSection_not_continued _)
        · cases refused
    | some name =>
        by_cases continues : reader.Continues line
        · obtain ⟨other, value, isInside, found⟩ := settled continues.1
          rw [inside] at isInside
          cases isInside
          rw [addLine_continues speaks inside continues, addContinuation, found] at refused
          cases value with
          | none => exact ⟨⟨continues.1, name, inside, found⟩, speaks, continues.2⟩
          | some lines => cases refused
        · rw [addLine_starts speaks inside continues] at refused
          split at refused
          · exact absurd refused (openSection_not_continued _)
          · exact absurd refused (addOption_not_continued _ _)
  · rintro ⟨⟨filled, name, inside, found⟩, speaks, deeper⟩
    rw [addLine_continues speaks inside ⟨filled, deeper⟩]
    simp only [addContinuation, found]

end Steps

/-- Behind idle lines comes one that is indented deeper. -/
def Resumes (indent : Nat) (lines : List String) : Prop :=
  ∃ between deeper after, lines = between ++ deeper :: after ∧
    (∀ line ∈ between, IsIdle line) ∧ ¬ IsIdle deeper ∧ indent < indentOf deeper

/-- An option is given without a value, and then it is continued. The lines before it are read
without a fault. -/
def ContinuesBare (reader : Reader) (number : Nat) (lines : List String) : Prop :=
  ∃ before bare rest state next, lines = before ++ bare :: rest ∧
    reader.addLines number before = .ok state ∧ state.NamesBare bare ∧
    state.addLine (number + before.length) bare = .ok next ∧ Resumes (indentOf bare) rest

theorem resumes_cons {indent : Nat} {line : String} {rest : List String} :
    Resumes indent (line :: rest) ↔
      (¬ IsIdle line ∧ indent < indentOf line) ∨ (IsIdle line ∧ Resumes indent rest) := by
  constructor
  · rintro ⟨between, deeper, after, shape, idle, speaks, isDeeper⟩
    cases between with
    | nil =>
        cases shape
        exact .inl ⟨speaks, isDeeper⟩
    | cons first others =>
        cases shape
        exact .inr ⟨idle _ List.mem_cons_self, others, deeper, after, rfl,
          fun next member => idle next (List.mem_cons_of_mem _ member), speaks, isDeeper⟩
  · rintro (⟨speaks, isDeeper⟩ | ⟨isIdle, between, deeper, after, rfl, idle, speaks, isDeeper⟩)
    · exact ⟨[], line, rest, rfl, by simp, speaks, isDeeper⟩
    · exact ⟨line :: between, deeper, after, rfl, List.forall_mem_cons.mpr ⟨isIdle, idle⟩, speaks,
        isDeeper⟩

theorem continuesBare_cons {reader : Reader} {number : Nat} {line : String} {rest : List String} :
    reader.ContinuesBare number (line :: rest) ↔ ∃ next, reader.addLine number line = .ok next ∧
      ((reader.NamesBare line ∧ Resumes (indentOf line) rest) ∨
        next.ContinuesBare (number + 1) rest) := by
  have count (before : List String) :
      number + (before.length + 1) = number + 1 + before.length := by omega
  constructor
  · rintro ⟨before, bare, others, state, next, shape, reads, names, taken, resumes⟩
    cases before with
    | nil =>
        cases shape
        cases reads
        exact ⟨next, taken, .inl ⟨names, resumes⟩⟩
    | cons first before =>
        cases shape
        obtain ⟨middle, read, reads⟩ := Outcome.bind_eq_ok.mp reads
        rw [List.length_cons, count] at taken
        exact ⟨middle, read,
          .inr ⟨before, bare, others, state, next, rfl, reads, names, taken, resumes⟩⟩
  · rintro ⟨next, read, ⟨names, resumes⟩ |
      ⟨before, bare, others, state, last, rfl, reads, names, taken, resumes⟩⟩
    · exact ⟨[], line, rest, reader, next, rfl, rfl, names, read, resumes⟩
    · refine ⟨line :: before, bare, others, state, last, rfl,
        Outcome.bind_eq_ok.mpr ⟨next, read, reads⟩, names, ?_, resumes⟩
      rw [List.length_cons, count]
      exact taken

/-- Reading ends with a continued name when an option without a value is continued. -/
theorem addLines_continued_iff {reader : Reader} (settled : reader.IsSettled) (number : Nat)
    (lines : List String) :
    reader.addLines number lines = .error .continuedName ↔
      (reader.IsBare ∧ Resumes reader.indent lines) ∨ reader.ContinuesBare number lines := by
  induction lines generalizing reader number with
  | nil => simp [addLines, Resumes, ContinuesBare]
  | cons line rest inductionHypothesis =>
      rw [resumes_cons, continuesBare_cons]
      cases read : reader.addLine number line with
      | error fault =>
          have stops : reader.addLines number (line :: rest) = .error fault := by
            simp only [addLines, read, bind, Except.bind]
          have notIdle : ¬ IsIdle line := by
            intro idle
            rcases reader.addLine_idle number idle with skipped | skipped <;>
              · rw [skipped] at read
                cases read
          have failed (other : Reader) : reader.addLine number line ≠ .ok other := by simp [read]
          rw [stops, ← read, addLine_continued_iff settled]
          simp [notIdle, failed]
      | ok next =>
          have passes :
              reader.addLines number (line :: rest) = next.addLines (number + 1) rest := by
            simp only [addLines, read, bind, Except.bind]
          obtain ⟨isSettled, origin⟩ := addLine_ok settled read
          rw [passes, inductionHypothesis isSettled]
          constructor
          · rintro (⟨bare, resumes⟩ | continues)
            · rcases origin bare with ⟨idle, rfl⟩ | ⟨names, indented⟩
              · exact .inl ⟨bare, .inr ⟨idle, resumes⟩⟩
              · exact .inr ⟨next, rfl, .inl ⟨names, indented ▸ resumes⟩⟩
            · exact .inr ⟨next, rfl, .inr continues⟩
          · rintro (⟨bare, ⟨speaks, deeper⟩ | ⟨idle, resumes⟩⟩ |
              ⟨_, ⟨⟩, ⟨names, resumes⟩ | continues⟩)
            · rw [(addLine_continued_iff settled).mpr ⟨bare, speaks, deeper⟩] at read
              cases read
            · have kept : next = reader := by
                rcases reader.addLine_idle number idle with skipped | skipped
                · rw [skipped, addEmptyLine_of_isBare bare] at read
                  exact (Except.ok.inj read).symm
                · exact (Except.ok.inj (skipped.symm.trans read)).symm
              subst kept
              exact .inl ⟨bare, resumes⟩
            · obtain ⟨bare, indented⟩ := isBare_of_namesBare names read
              exact .inl ⟨bare, indented ▸ resumes⟩
            · exact .inr continues

end Reader

theorem Reader.start_continued_iff {lines : List String} :
    Reader.addLines {} 1 lines = .error .continuedName ↔ Reader.ContinuesBare {} 1 lines := by
  have start : Reader.IsSettled {} := fun filled => absurd rfl filled
  have notBare : ¬ Reader.IsBare {} := fun bare => bare.1 rfl
  have reads := Reader.addLines_continued_iff start 1 lines
  simpa only [notBare, false_and, false_or] using reads

/-- Reading a document ends with a continued name when one of its options without a value is
continued. -/
theorem parse_continued_iff {lines : List String} :
    parse lines = .error .continuedName ↔ Reader.ContinuesBare {} 1 lines := by
  rw [← Reader.start_continued_iff, parse]
  cases Reader.addLines {} 1 lines with
  | error fault => simp [bind, Except.bind]
  | ok reader =>
      simp only [bind, Except.bind, Reader.finish]
      split <;> simp

/-- The lines that are read of octets. Those behind a fault in the octets are not among them. -/
def linesOf (bytes : Bytes) : List String :=
  let decoded := decodeBlocks [] bytes
  match decoded.fault with
  | none => (linesWithEnds (Text.unifyNewlines decoded.text)).map String.ofList
  | some _ => (wholeLines decoded.text).map String.ofList

theorem linesOf_encode (text : String) :
    linesOf (Utf8.encode text) =
      (linesWithEnds (Text.unifyNewlines text.toList)).map String.ofList := by
  simp only [linesOf, decodeBlocks_encode]

theorem ofBytes_encode (text : String) :
    ofBytes (Utf8.encode text) =
      match parse (linesOf (Utf8.encode text)) with
      | .ok document => .ok document
      | .error fault => .error (.line fault) := by
  rw [linesOf_encode]
  cases parsed : parse ((linesWithEnds (Text.unifyNewlines text.toList)).map String.ofList) <;>
    simp only [ofBytes, decodeBlocks_encode, parsed]

theorem ofBytes_continued_iff {bytes : Bytes} :
    ofBytes bytes = .error (.line .continuedName) ↔
      Reader.ContinuesBare {} 1 (linesOf bytes) := by
  simp only [ofBytes, linesOf]
  cases (decodeBlocks [] bytes).fault with
  | none =>
      rw [← parse_continued_iff]
      simp only
      split <;> simp_all
  | some undecodable =>
      rw [← Reader.start_continued_iff]
      simp only
      split <;> simp_all

/-- Octets of no text in which no line before the fault is at fault itself. -/
def BreaksOff (bytes : Bytes) : Prop :=
  (¬ ∃ text, bytes = Utf8.encode text) ∧
    ∃ reader, Reader.addLines {} 1 (linesOf bytes) = .ok reader

theorem ofBytes_undecodable_iff {bytes : Bytes} :
    (∃ fault, ofBytes bytes = .error (.undecodable fault)) ↔ BreaksOff bytes := by
  rw [BreaksOff, ← decodeBlocks_fault_eq_none]
  simp only [ofBytes, linesOf]
  cases (decodeBlocks [] bytes).fault with
  | none =>
      simp only [not_true_eq_false, false_and, iff_false]
      split <;> simp
  | some undecodable =>
      simp only
      cases Reader.addLines {} 1 ((wholeLines (decodeBlocks [] bytes).text).map String.ofList) <;>
        simp

end Ini

end AssetBundler
