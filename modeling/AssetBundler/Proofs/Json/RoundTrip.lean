import AssetBundler.Proofs.Assoc
import AssetBundler.Proofs.Json.Strings
import Mathlib.Data.List.Basic

/-!
Reading of the values that are written. A value with whole numbers is got back from its text with
fused texts, field by field in the same order, and its text is ASCII.
-/

namespace AssetBundler.Json

theorem mapItems_eq {Text Other : Type} (convert : Text → Other) (items : List (Json Text)) :
    mapItems convert items = items.map (mapText convert) := by
  induction items with
  | nil => rfl
  | cons item rest inductionHypothesis => rw [mapItems, inductionHypothesis, List.map_cons]

theorem mapFields_eq {Text Other : Type} (convert : Text → Other)
    (fields : List (Text × Json Text)) :
    mapFields convert fields =
      fields.map fun field => (convert field.1, field.2.mapText convert) := by
  induction fields with
  | nil => rfl
  | cons field rest inductionHypothesis => rw [mapFields, inductionHypothesis, List.map_cons]

/-- A value that the reader takes. Its numbers are whole and not too long, its fields have names
that are distinct when they are fused, and it is nested in no more than so many levels. -/
inductive IsReadable : Nat → Json CodeText → Prop
  | null {depth : Nat} : IsReadable depth .null
  | bool {depth : Nat} (value : Bool) : IsReadable depth (.bool value)
  | integer {depth : Nat} {value : Int} (short : (Nat.toDigits 10 value.natAbs).length ≤ 4300) :
      IsReadable depth (.integer value)
  | string {depth : Nat} (text : CodeText) : IsReadable depth (.string text)
  | array {depth : Nat} {items : List (Json CodeText)}
      (each : ∀ item ∈ items, IsReadable depth item) : IsReadable (depth + 1) (.array items)
  | object {depth : Nat} {fields : List (CodeText × Json CodeText)}
      (distinct : ((Assoc.keys fields).map CodeText.fuse).Nodup)
      (each : ∀ field ∈ fields, IsReadable depth field.2) : IsReadable (depth + 1) (.object fields)

/-- What may follow a value: the end of the text or of what it stands in, or a comma. -/
def Closes (rest : List Char) : Prop := ∀ c ∈ rest.head?, c ∈ [',', ']', '\x7d']

section Numbers

variable {number : Nat} {digits rest : List Char}

theorem isDigit_of_mem_toDigits {c : Char} (member : c ∈ Nat.toDigits 10 number) :
    isDigit c = true := by
  have decimal := Nat.isDigit_of_mem_toDigits (by decide) (by decide) member
  simpa [Char.isDigit, isDigit, Char.le_def] using decimal

theorem digitsValue_toDigits (number : Nat) : digitsValue (Nat.toDigits 10 number) = number := by
  have read := @Nat.ofDigitChars_ten_toDigits number
  have zero : '0'.toNat = 48 := rfl
  rw [Nat.ofDigitChars_eq_foldl, zero] at read
  simpa only [digitsValue, Nat.mul_comm] using read

/-- Only zero is written with a zero at the start. -/
theorem exists_toDigits (number : Nat) : ∃ first digits, Nat.toDigits 10 number = first :: digits ∧
    (first = '0' → number = 0) := by
  induction number using Nat.strongRecOn with
  | ind number inductionHypothesis =>
      rw [Nat.toDigits_eq_if (by decide)]
      split
      · next small =>
        have all : ∀ digit < 10, Nat.digitChar digit = '0' → digit = 0 := by decide
        exact ⟨_, [], rfl, all number small⟩
      · next large =>
        obtain ⟨first, digits, shape, zero⟩ := inductionHypothesis (number / 10) (by omega)
        refine ⟨first, digits ++ [Nat.digitChar (number % 10)], by rw [shape]; rfl, fun same => ?_⟩
        have none := zero same
        omega

theorem readWhole_toDigits (number : Nat) (ends : ∀ c ∈ rest.head?, isDigit c = false) :
    readWhole (Nat.toDigits 10 number ++ rest) = Nat.toDigits 10 number := by
  obtain ⟨first, digits, shape, zero⟩ := exists_toDigits number
  rw [shape, List.cons_append, readWhole.eq_def]
  split
  · next same =>
    obtain ⟨rfl, -⟩ := List.cons.inj same
    obtain rfl := zero rfl
    exact shape
  · rw [← List.cons_append, ← shape,
      List.takeWhile_append_of_pos fun c member => isDigit_of_mem_toDigits member]
    have none : rest.takeWhile isDigit = [] := by
      cases rest with
      | nil => rfl
      | cons c others => exact List.takeWhile_cons_of_neg (by simp [ends c rfl])
    rw [none, List.append_nil]

/-- What may follow a value does not continue a number. -/
theorem Closes.apart (closes : Closes rest) {c : Char} (isNext : c ∈ rest.head?) :
    isDigit c = false ∧ c ≠ '.' ∧ c ≠ 'e' ∧ c ≠ 'E' := by
  have all : ∀ c ∈ [',', ']', '\x7d'], isDigit c = false ∧ c ≠ '.' ∧ c ≠ 'e' ∧ c ≠ 'E' := by
    simp [isDigit]
  exact all c (closes c isNext)

theorem readFraction_of_closes (closes : Closes rest) : readFraction rest = (none, rest) := by
  rw [readFraction.eq_def]
  split
  · exact absurd rfl (closes.apart rfl).2.1
  · rfl

theorem readExponent_of_closes (closes : Closes rest) : readExponent rest = (none, rest) := by
  cases rest with
  | nil => rfl
  | cons mark signed =>
      have apart := closes.apart rfl
      rw [readExponent, if_neg fun either => either.elim apart.2.2.1 apart.2.2.2]

/-- Digits are read as a number when they do not go on, with the sign before them. -/
theorem readNumber_digits (negative : Bool) (short : (Nat.toDigits 10 number).length ≤ 4300)
    (closes : Closes rest) :
    readNumber ((if negative then ['-'] else []) ++ (Nat.toDigits 10 number ++ rest)) =
      .ok (.integer (if negative then -(number : Int) else number), rest) := by
  have whole := readWhole_toDigits number fun c isNext => (closes.apart isNext).1
  have filled : (Nat.toDigits 10 number).isEmpty = false := by simp
  have behind : (Nat.toDigits 10 number ++ rest).drop (Nat.toDigits 10 number).length = rest :=
    List.drop_left
  have fits : ¬ 4300 < (Nat.toDigits 10 number).length := Nat.not_lt.mpr short
  have sign : (((if negative then ['-'] else []) ++
      (Nat.toDigits 10 number ++ rest)).head? == some '-') = negative := by
    cases negative with
    | true => rfl
    | false =>
        obtain ⟨first, digits, shape, -⟩ := exists_toDigits number
        have isFirst : isDigit first = true :=
          isDigit_of_mem_toDigits (shape ▸ List.mem_cons_self)
        have notMinus : first ≠ '-' := by
          rintro rfl
          cases isFirst
        simpa [shape] using notMinus
  have unsigned : (if negative = true then
      ((if negative then ['-'] else []) ++ (Nat.toDigits 10 number ++ rest)).drop 1
      else (if negative then ['-'] else []) ++ (Nat.toDigits 10 number ++ rest)) =
        Nat.toDigits 10 number ++ rest := by
    cases negative <;> rfl
  simp only [readNumber, sign, unsigned, whole, filled, behind, readFraction_of_closes closes,
    readExponent_of_closes closes, Option.isNone_none, Bool.and_self, if_true, if_neg fits,
    digitsValue_toDigits, Bool.false_eq_true, if_false]

/-- The text of a whole number is its sign and its digits. -/
theorem toList_toString (value : Int) : (toString value).toList =
    (if decide (value < 0) then ['-'] else []) ++ Nat.toDigits 10 value.natAbs := by
  rw [Int.toString_eq_repr, Int.repr_eq_if]
  by_cases negative : value < 0
  · have same : (-value).toNat = value.natAbs := by omega
    simp [same, Nat.repr_eq_ofList_toDigits, negative, Int.not_le.mpr negative]
  · have same : value.toNat = value.natAbs := by omega
    simp [same, Nat.repr_eq_ofList_toDigits, negative, Int.not_lt.mp negative]

theorem readNumber_toString {value : Int} (short : (Nat.toDigits 10 value.natAbs).length ≤ 4300)
    (closes : Closes rest) :
    readNumber ((toString value).toList ++ rest) = .ok (.integer value, rest) := by
  have signed : (if decide (value < 0) = true then -(value.natAbs : Int) else value.natAbs) =
      value := by
    simp only [decide_eq_true_eq]
    omega
  rw [toList_toString, List.append_assoc, readNumber_digits _ short closes, signed]

end Numbers

section Values

variable {depth fuel : Nat} {value : Json CodeText} {rest : List Char}

/-- The text of a value starts with a character that is no blank and closes nothing. -/
def Opens (text : List Char) : Prop :=
  ∃ c others, text = c :: others ∧ isSpace c = false ∧ c ∉ [',', ']', '\x7d']

theorem Opens.skipSpaces_append {text : List Char} (opens : Opens text) (rest : List Char) :
    skipSpaces (text ++ rest) = text ++ rest := by
  obtain ⟨c, others, rfl, solid, -⟩ := opens
  exact List.dropWhile_cons_of_neg (Bool.eq_false_iff.mp solid)

/-- A number starts with a digit, be it behind a sign. -/
theorem exists_toString (value : Int) : ∃ first others, (toString value).toList = first :: others ∧
    (isDigit first = true ∨ first = '-') ∧ ∃ c ∈ (first :: others).take 2, isDigit c = true := by
  obtain ⟨first, digits, shape, -⟩ := exists_toDigits value.natAbs
  have isFirst : isDigit first = true := isDigit_of_mem_toDigits (shape ▸ List.mem_cons_self)
  rw [toList_toString, shape]
  split
  · exact ⟨'-', first :: digits, rfl, Or.inr rfl, first, by simp, isFirst⟩
  · exact ⟨first, digits, rfl, Or.inl isFirst, first, by simp, isFirst⟩

theorem ne_of_starts {first other : Char} (starts : isDigit first = true ∨ first = '-')
    (foreign : isDigit other = false) (noSign : other ≠ '-') : first ≠ other := by
  rintro rfl
  rcases starts with isFirst | isSign
  · rw [foreign] at isFirst
    cases isFirst
  · exact noSign isSign

/-- No name of a value has a digit among its first two characters. -/
theorem readName?_of_digit {text : List Char} {c : Char} (member : c ∈ text.take 2)
    (digit : isDigit c = true) : readName? text = none := by
  have nameless : ∀ named ∈ namedValues, 2 ≤ named.1.toList.length ∧
      ∀ c ∈ named.1.toList.take 2, isDigit c = false := by
    simp [namedValues, isDigit]
  rw [readName?, List.findSome?_eq_none_iff]
  intro named isNamed
  refine if_neg fun starts => ?_
  obtain ⟨others, rfl⟩ := List.isPrefixOf_iff_prefix.mp starts
  obtain ⟨long, foreign⟩ := nameless named isNamed
  rw [List.take_append_of_le_length long] at member
  rw [foreign c member] at digit
  cases digit

theorem opens_write (readable : IsReadable depth value) : Opens (write .spaced value) := by
  cases readable with
  | null => exact ⟨'n', _, rfl, by decide⟩
  | bool value => cases value <;> exact ⟨_, _, rfl, by decide⟩
  | integer short =>
      rename_i value
      obtain ⟨first, others, shape, starts, -⟩ := exists_toString value
      have other {c : Char} := @ne_of_starts first c starts
      refine ⟨first, others, shape, ?_, ?_⟩
      · simp [isSpace, @other ' ' rfl (by decide), @other '\t' rfl (by decide),
          @other '\n' rfl (by decide), @other '\r' rfl (by decide)]
      · simp [@other ',' rfl (by decide), @other ']' rfl (by decide),
          @other '\x7d' rfl (by decide)]
  | string text => exact ⟨'"', _, rfl, by decide⟩
  | array each =>
      rw [write.eq_def]
      exact ⟨'[', _, rfl, by decide⟩
  | object distinct each =>
      rw [write.eq_def]
      exact ⟨'\x7b', _, rfl, by decide⟩

/-- The reader gets a value back from its text, with fused texts, when there is fuel for twice the
length of the text. -/
def ReadsBack (depth : Nat) (value : Json CodeText) : Prop :=
  ∀ fuel rest, 2 * (write .spaced value).length ≤ fuel + 1 → Closes rest →
    readValue (fuel + 1) depth (write .spaced value ++ rest) =
      .ok (value.mapText CodeText.fuse, rest)

theorem readsBack_integer {value : Int}
    (short : (Nat.toDigits 10 value.natAbs).length ≤ 4300) : ReadsBack depth (.integer value) := by
  intro fuel rest enough closes
  obtain ⟨first, others, shape, starts, c, member, digit⟩ := exists_toString value
  have read := readNumber_toString short closes
  have other {c : Char} := @ne_of_starts first c starts
  have nameless : readName? (first :: (others ++ rest)) = none := by
    refine readName?_of_digit ?_ digit
    rw [← List.cons_append, List.take_append]
    exact List.mem_append_left _ member
  rw [write.eq_def]
  simp only [shape, List.cons_append] at read ⊢
  rw [readValue.eq_def]
  simp only [other rfl (by decide : '"' ≠ '-'), other rfl (by decide : '[' ≠ '-'),
    other rfl (by decide : '\x7b' ≠ '-'), if_false, nameless, read]
  rfl

theorem readsBack_string (text : CodeText) : ReadsBack depth (.string text) := by
  intro fuel rest enough closes
  rw [write.eq_def]
  simp only [HasPoints.points, id_eq, writeString, List.cons_append, List.append_assoc,
    List.nil_append]
  rw [readValue.eq_def]
  simp only [if_true, readString_flatMap, bind, Except.bind, pure, Except.pure]
  rfl

theorem separators : Layout.spaced.itemSeparator.toList = [',', ' '] ∧
    Layout.spaced.nameSeparator.toList = [':', ' '] := by decide +kernel

/-- Texts with a comma and a blank between them. -/
def listed (texts : List (List Char)) : List Char := [',', ' '].intercalate texts

theorem listed_singleton (text : List Char) : listed [text] = text := List.intercalate_singleton

theorem listed_cons_cons (text next : List Char) (texts : List (List Char)) :
    listed (text :: next :: texts) = text ++ ',' :: ' ' :: listed (next :: texts) := by
  rw [listed, List.intercalate_cons_cons, List.append_assoc]
  rfl

theorem Opens.listed {text : List Char} (opens : Opens text) (texts : List (List Char)) :
    Opens (listed (text :: texts)) := by
  obtain ⟨c, others, rfl, outside⟩ := opens
  cases texts with
  | nil => exact ⟨c, others, listed_singleton _, outside⟩
  | cons next texts => exact ⟨c, _, listed_cons_cons _ next texts, outside⟩

theorem Opens.length_pos {text : List Char} (opens : Opens text) : 0 < text.length := by
  obtain ⟨c, others, rfl, -⟩ := opens
  exact Nat.succ_pos _

/-- What stands behind the comma of a list is read from its next text on. -/
theorem skipSpaces_listed {text : List Char} (opens : Opens text) (texts : List (List Char))
    (rest : List Char) : skipSpaces (' ' :: (listed (text :: texts) ++ rest)) =
      listed (text :: texts) ++ rest :=
  (opens.listed texts).skipSpaces_append rest

theorem writeItems_eq (items : List (Json CodeText)) :
    writeItems .spaced items = listed (items.map (write .spaced)) := by
  induction items with
  | nil => rfl
  | cons item others inductionHypothesis =>
      cases others with
      | nil => exact (listed_singleton _).symm
      | cons next later =>
          rw [writeItems.eq_def]
          simp only [separators, inductionHypothesis, List.map_cons, listed_cons_cons]
          rw [List.append_assoc]
          rfl

/-- The text of a field. -/
def fieldText (field : CodeText × Json CodeText) : List Char :=
  writeString .spaced field.1 ++ ':' :: ' ' :: write .spaced field.2

theorem writeFields_eq (fields : List (CodeText × Json CodeText)) :
    writeFields .spaced fields = fields.map fun field => (field.1, fieldText field) := by
  induction fields with
  | nil => rfl
  | cons field others inductionHypothesis =>
      rw [writeFields.eq_def]
      simp only [separators, inductionHypothesis, List.append_assoc]
      rfl

theorem opens_fieldText (field : CodeText × Json CodeText) : Opens (fieldText field) :=
  ⟨'"', _, rfl, by decide⟩

/-- Items are read back one after the other up to the closing bracket. -/
theorem readItems_listed {items : List (Json CodeText)} (filled : items ≠ [])
    (each : ∀ item ∈ items, ReadsBack depth item ∧ Opens (write .spaced item))
    (enough : 2 * (listed (items.map (write .spaced))).length ≤ fuel) :
    readItems (fuel + 1) depth (listed (items.map (write .spaced)) ++ ']' :: rest) =
      .ok (mapItems CodeText.fuse items, rest) := by
  induction items generalizing fuel with
  | nil => exact absurd rfl filled
  | cons item others inductionHypothesis =>
      obtain ⟨reads, opens⟩ := each item List.mem_cons_self
      have positive := opens.length_pos
      rw [readItems.eq_def]
      cases others with
      | nil =>
          simp only [List.map_cons, List.map_nil, listed_singleton] at enough ⊢
          obtain ⟨less, rfl⟩ : ∃ less, fuel = less + 1 := ⟨fuel - 1, by omega⟩
          rw [reads less (']' :: rest) enough (by simp [Closes])]
          rfl
      | cons next later =>
          have blank := skipSpaces_listed (each next (by simp)).2 (later.map (write .spaced))
            (']' :: rest)
          have comma (text : List Char) : skipSpaces (',' :: text) = ',' :: text := rfl
          simp only [List.map_cons, listed_cons_cons, List.length_append, List.length_cons,
            List.append_assoc, List.cons_append] at enough inductionHypothesis ⊢
          obtain ⟨less, rfl⟩ : ∃ less, fuel = less + 1 := ⟨fuel - 1, by omega⟩
          have behind := @inductionHypothesis less (List.cons_ne_nil next later)
            (fun item member => each item (List.mem_cons_of_mem _ member)) (by omega)
          rw [reads less _ (by omega) (by simp [Closes])]
          simp only [bind, Except.bind, comma, blank, behind, pure, Except.pure]
          rfl

/-- Fields are read back one after the other up to the closing brace. -/
theorem readFields_listed {fields : List (CodeText × Json CodeText)} (filled : fields ≠ [])
    (each : ∀ field ∈ fields, ReadsBack depth field.2 ∧ Opens (write .spaced field.2))
    (enough : 2 * (listed (fields.map fieldText)).length ≤ fuel) :
    readFields (fuel + 1) depth (listed (fields.map fieldText) ++ '\x7d' :: rest) =
      .ok (mapFields CodeText.fuse fields, rest) := by
  induction fields generalizing fuel with
  | nil => exact absurd rfl filled
  | cons field others inductionHypothesis =>
      obtain ⟨reads, opens⟩ := each field List.mem_cons_self
      have positive := opens.length_pos
      have colon (text : List Char) : skipSpaces (':' :: text) = ':' :: text := rfl
      have value (rest : List Char) : skipSpaces (' ' :: (write .spaced field.2 ++ rest)) =
          write .spaced field.2 ++ rest := opens.skipSpaces_append rest
      cases others with
      | nil =>
          simp only [List.map_cons, List.map_nil, listed_singleton, fieldText, writeString,
            List.length_append, List.length_cons, List.append_assoc, List.cons_append,
            List.nil_append] at enough ⊢
          obtain ⟨less, rfl⟩ : ∃ less, fuel = less + 1 := ⟨fuel - 1, by omega⟩
          rw [readFields.eq_def]
          simp only [readString_flatMap, bind, Except.bind, colon, value]
          rw [reads less ('\x7d' :: rest) (by omega) (by simp [Closes])]
          rfl
      | cons next later =>
          have blank := skipSpaces_listed (opens_fieldText next) (later.map fieldText)
            ('\x7d' :: rest)
          have comma (text : List Char) : skipSpaces (',' :: text) = ',' :: text := rfl
          simp only [List.map_cons, listed_cons_cons] at enough inductionHypothesis ⊢
          rw [fieldText, writeString] at enough ⊢
          simp only [List.length_append, List.length_cons, List.append_assoc, List.cons_append,
            List.nil_append] at enough ⊢
          obtain ⟨less, rfl⟩ : ∃ less, fuel = less + 1 := ⟨fuel - 1, by omega⟩
          have behind := @inductionHypothesis less (List.cons_ne_nil next later)
            (fun field member => each field (List.mem_cons_of_mem _ member)) (by omega)
          rw [readFields.eq_def]
          simp only [readString_flatMap, bind, Except.bind, colon, value]
          rw [reads less _ (by omega) (by simp [Closes])]
          simp only [comma, blank, behind, pure, Except.pure]
          rfl

theorem write_array (items : List (Json CodeText)) :
    write .spaced (.array items) = '[' :: (listed (items.map (write .spaced)) ++ [']']) := by
  rw [write.eq_def]
  simp only [writeItems_eq]

theorem write_object (fields : List (CodeText × Json CodeText)) :
    write .spaced (.object fields) = '\x7b' :: (listed (fields.map fieldText) ++ ['\x7d']) := by
  have kept : Layout.spaced.sortsFields = false := rfl
  rw [write.eq_def]
  simp only [writeFields_eq, separators, kept, Bool.false_eq_true, if_false, List.map_map]
  rfl

theorem readsBack_array {items : List (Json CodeText)}
    (each : ∀ item ∈ items, ReadsBack depth item ∧ Opens (write .spaced item)) :
    ReadsBack (depth + 1) (.array items) := by
  intro fuel rest enough closes
  rw [write_array] at enough ⊢
  simp only [List.length_append, List.length_cons, List.append_assoc, List.cons_append,
    List.nil_append] at enough ⊢
  rw [readValue.eq_def]
  simp only [(by decide : '[' ≠ '"'), if_false, if_true]
  cases items with
  | nil => rfl
  | cons item others =>
      have opens := ((each item List.mem_cons_self).2).listed (others.map (write .spaced))
      have blank := opens.skipSpaces_append (']' :: rest)
      obtain ⟨less, rfl⟩ : ∃ less, fuel = less + 1 := ⟨fuel - 1, by omega⟩
      have read := @readItems_listed depth less rest _ (List.cons_ne_nil item others) each
        (by omega)
      obtain ⟨c, more, shape, -, notClosing⟩ := opens
      rw [List.map_cons] at read ⊢
      rw [blank]
      split
      · next none => cases none
      · next closed _ =>
        rw [shape] at closed
        cases closed
        exact absurd (by simp) notClosing
      · next left _ =>
        cases left
        rw [read]
        rfl

theorem readsBack_object {fields : List (CodeText × Json CodeText)}
    (distinct : ((Assoc.keys fields).map CodeText.fuse).Nodup)
    (each : ∀ field ∈ fields, ReadsBack depth field.2 ∧ Opens (write .spaced field.2)) :
    ReadsBack (depth + 1) (.object fields) := by
  intro fuel rest enough closes
  rw [write_object] at enough ⊢
  simp only [List.length_append, List.length_cons, List.append_assoc, List.cons_append,
    List.nil_append] at enough ⊢
  rw [readValue.eq_def]
  simp only [(by decide : '\x7b' ≠ '"'), (by decide : '\x7b' ≠ '['), if_false, if_true]
  cases fields with
  | nil => rfl
  | cons field others =>
      have opens := (opens_fieldText field).listed (others.map fieldText)
      have blank := opens.skipSpaces_append ('\x7d' :: rest)
      obtain ⟨less, rfl⟩ : ∃ less, fuel = less + 1 := ⟨fuel - 1, by omega⟩
      have read := @readFields_listed depth less rest _ (List.cons_ne_nil field others) each
        (by omega)
      obtain ⟨c, more, shape, -, notClosing⟩ := opens
      have names : Assoc.keys (mapFields CodeText.fuse (field :: others)) =
          (Assoc.keys (field :: others)).map CodeText.fuse := by
        simp only [mapFields_eq, Assoc.keys, List.map_map, Function.comp_def]
      have merged : Assoc.merge [] (mapFields CodeText.fuse (field :: others)) =
          mapFields CodeText.fuse (field :: others) :=
        Assoc.merge_of_nodup (names ▸ distinct)
      rw [List.map_cons] at read ⊢
      rw [blank]
      split
      · next none => cases none
      · next closed _ =>
        rw [shape] at closed
        cases closed
        exact absurd (by simp) notClosing
      · next left _ =>
        cases left
        rw [read]
        simp only [bind, Except.bind, pure, Except.pure, merged]
        rfl

/-- A readable value is got back from its text with fused texts, and what follows it is left. -/
theorem readsBack_of_isReadable (readable : IsReadable depth value) : ReadsBack depth value := by
  induction readable with
  | null => exact fun fuel rest enough closes => rfl
  | bool value => exact fun fuel rest enough closes => by cases value <;> rfl
  | integer short => exact readsBack_integer short
  | string text => exact readsBack_string text
  | array each inductionHypothesis =>
      exact readsBack_array fun item member =>
        ⟨inductionHypothesis item member, opens_write (each item member)⟩
  | object distinct each inductionHypothesis =>
      exact readsBack_object distinct fun field member =>
        ⟨inductionHypothesis field member, opens_write (each field member)⟩

section Visible

variable {c : Char}

theorem mem_listed {texts : List (List Char)} (member : c ∈ listed texts) :
    c = ',' ∨ c = ' ' ∨ ∃ text ∈ texts, c ∈ text := by
  induction texts with
  | nil => cases member
  | cons text others inductionHypothesis =>
      cases others with
      | nil =>
          rw [listed_singleton] at member
          exact Or.inr (Or.inr ⟨text, List.mem_cons_self, member⟩)
      | cons next later =>
          rw [listed_cons_cons] at member
          rcases List.mem_append.mp member with inside | behind
          · exact Or.inr (Or.inr ⟨text, List.mem_cons_self, inside⟩)
          · rcases List.mem_cons.mp behind with comma | behind
            · exact Or.inl comma
            · rcases List.mem_cons.mp behind with blank | behind
              · exact Or.inr (Or.inl blank)
              · exact (inductionHypothesis behind).imp_right (Or.imp_right
                  fun ⟨other, isOther, inside⟩ =>
                    ⟨other, List.mem_cons_of_mem text isOther, inside⟩)

theorem isVisible_of_mem_listed {texts : List (List Char)} (member : c ∈ listed texts)
    (each : ∀ text ∈ texts, ∀ c ∈ text, IsVisible c) : IsVisible c := by
  rcases mem_listed member with rfl | rfl | ⟨text, isText, inside⟩
  · decide
  · decide
  · exact each text isText c inside

theorem isVisible_of_isDigit (digit : isDigit c = true) : IsVisible c := by
  simp only [isDigit, Bool.and_eq_true, decide_eq_true_eq] at digit
  have low : 48 ≤ c.toNat := digit.1
  have high : c.toNat ≤ 57 := digit.2
  have visible : 32 ≤ c.toNat ∧ c.toNat < 127 := by omega
  exact visible

theorem isVisible_of_mem_toString {value : Int} (member : c ∈ (toString value).toList) :
    IsVisible c := by
  rw [toList_toString] at member
  rcases List.mem_append.mp member with isSign | digit
  · split at isSign
    · exact List.mem_singleton.mp isSign ▸ by decide
    · cases isSign
  · exact isVisible_of_isDigit (isDigit_of_mem_toDigits digit)

theorem isVisible_of_all {text : List Char}
    (all : text.all (fun c => decide (IsVisible c)) = true) : ∀ c ∈ text, IsVisible c :=
  fun c member => of_decide_eq_true (List.all_eq_true.mp all c member)

/-- The text of a readable value is ASCII without control characters. -/
theorem isVisible_of_mem_write (readable : IsReadable depth value) :
    ∀ c ∈ write .spaced value, IsVisible c := by
  induction readable with
  | null => exact isVisible_of_all (by decide +kernel)
  | bool value => exact isVisible_of_all (by cases value <;> decide +kernel)
  | integer short => exact fun c member => isVisible_of_mem_toString member
  | string text => exact fun c member => isVisible_of_mem_writeString rfl member
  | array each inductionHypothesis =>
      intro c member
      rw [write_array] at member
      rcases List.mem_cons.mp member with rfl | inside
      · decide
      · rcases List.mem_append.mp inside with inItems | closing
        · refine isVisible_of_mem_listed inItems fun text isText => ?_
          obtain ⟨item, isItem, rfl⟩ := List.mem_map.mp isText
          exact inductionHypothesis item isItem
        · exact List.mem_singleton.mp closing ▸ by decide
  | object distinct each inductionHypothesis =>
      intro c member
      rw [write_object] at member
      rcases List.mem_cons.mp member with rfl | inside
      · decide
      · rcases List.mem_append.mp inside with inFields | closing
        · refine isVisible_of_mem_listed inFields fun text isText c inText => ?_
          obtain ⟨field, isField, rfl⟩ := List.mem_map.mp isText
          rcases List.mem_append.mp inText with inName | behind
          · exact isVisible_of_mem_writeString rfl inName
          · rcases List.mem_cons.mp behind with rfl | behind
            · decide
            · rcases List.mem_cons.mp behind with rfl | inValue
              · decide
              · exact inductionHypothesis field isField c inValue
        · exact List.mem_singleton.mp closing ▸ by decide

end Visible

/-- A readable value is got back from its text with fused texts. -/
theorem load_rendered (readable : IsReadable nestingLimit value) :
    load (value.render .spaced) = .ok (value.mapText CodeText.fuse) := by
  have opens := opens_write readable
  have noMark : ((write .spaced value).head? == some '\uFEFF') = false := by
    obtain ⟨c, others, shape, -⟩ := opens
    have visible := isVisible_of_mem_write readable c (shape ▸ List.mem_cons_self)
    rw [shape, List.head?_cons, beq_eq_false_iff_ne]
    rintro same
    cases same
    exact absurd visible (by decide)
  have spaces := opens.skipSpaces_append []
  have read := readsBack_of_isReadable readable (2 * (write .spaced value).length) []
    (Nat.le_succ _) (by simp [Closes])
  rw [List.append_nil] at spaces read
  rw [load, render, String.toList_ofList, readDocument, noMark, if_neg Bool.false_ne_true, spaces,
    read]
  rfl

end Values

end AssetBundler.Json
