import AssetBundler.Json.Parser
import AssetBundler.Json.Printer
import AssetBundler.Proofs.Text.CodePoint

/-!
Reading of the strings that are written. The fused text is got back from what was written for a
text, and all of that is ASCII. So a text without a pair of surrogates is got back as it was.
-/

namespace AssetBundler.Json

/-- A character of ASCII that is no control character. -/
def IsVisible (c : Char) : Prop := ' ' ≤ c ∧ c < '\x7f'

instance (c : Char) : Decidable (IsVisible c) := by
  unfold IsVisible
  infer_instance

section Escapes

variable {unit : Nat} {point first second : CodePoint} {more : List Char}

theorem hexDigit?_digitChar (digit : Nat) (small : digit < 16) :
    hexDigit? (Nat.digitChar digit) = some digit := by
  have all : ∀ digit < 16, hexDigit? (Nat.digitChar digit) = some digit := by decide
  exact all digit small

theorem isVisible_digitChar {digit : Nat} (small : digit < 16) :
    IsVisible (Nat.digitChar digit) := by
  have all : ∀ digit < 16, IsVisible (Nat.digitChar digit) := by decide
  exact all digit small

/-- The four digits of a unit, the highest one first. -/
def unitDigits (unit : Nat) : List Char :=
  [Nat.digitChar (unit / 4096), Nat.digitChar (unit / 256 % 16), Nat.digitChar (unit / 16 % 16),
    Nat.digitChar (unit % 16)]

theorem unitEscape_eq (small : unit < 0x10000) :
    unitEscape unit = '\\' :: 'u' :: unitDigits unit := by
  have base : 1 < 16 := by decide
  have third : unit / 16 / 16 = unit / 256 := by omega
  have fourth : unit / 256 / 16 = unit / 4096 := by omega
  rw [unitEscape, unitDigits, Nat.toDigits_eq_if base]
  split
  · next one =>
    have high : unit / 4096 = 0 ∧ unit / 256 % 16 = 0 ∧ unit / 16 % 16 = 0 := by omega
    rw [high.1, high.2.1, high.2.2, Nat.mod_eq_of_lt one]
    rfl
  · rw [Nat.toDigits_eq_if base]
    split
    · next two =>
      have high : unit / 4096 = 0 ∧ unit / 256 % 16 = 0 := by omega
      rw [high.1, high.2, Nat.mod_eq_of_lt two]
      rfl
    · rw [Nat.toDigits_eq_if base, third]
      split
      · next three =>
        have high : unit / 4096 = 0 := by omega
        rw [high, Nat.mod_eq_of_lt three]
        rfl
      · rw [Nat.toDigits_of_lt_base (by omega), fourth]
        rfl

/-- Digits are read as the unit that they were written for when something follows them. -/
theorem codeUnit?_unitDigits (small : point.val < 0x10000) (followed : more ≠ []) :
    codeUnit? (unitDigits point.val ++ more) = some point := by
  obtain ⟨next, rest, rfl⟩ := List.exists_cons_of_ne_nil followed
  have high := hexDigit?_digitChar (point.val / 4096) (by omega)
  have upper := hexDigit?_digitChar (point.val / 256 % 16) (by omega)
  have lower := hexDigit?_digitChar (point.val / 16 % 16) (by omega)
  have low := hexDigit?_digitChar (point.val % 16) (by omega)
  have total : ((point.val / 4096 * 16 + point.val / 256 % 16) * 16 + point.val / 16 % 16) * 16 +
      point.val % 16 = point.val := by omega
  rw [unitDigits]
  simp only [codeUnit?, List.cons_append, List.nil_append, high, upper, lower, low,
    Option.bind_eq_bind, Option.bind_some, total]
  exact congrArg some (Fin.ext (Nat.mod_eq_of_lt point.isLt))

/-- An escape at the start is none of a trailing surrogate. -/
def NoPartner (more : List Char) : Prop :=
  ∀ digits, more = '\\' :: 'u' :: digits →
    ∃ unit, codeUnit? digits = some unit ∧ unit.isTrailing = false

/-- A unit is read as it is when no escape of a partner stands behind it. -/
theorem readEscape_unit (opening : Nat) (small : point.val < 0x10000)
    (single : point.isLeading = false ∨ NoPartner more) (followed : more ≠ []) :
    readEscape opening ('u' :: (unitDigits point.val ++ more)) = .ok (point, 5) := by
  have read := codeUnit?_unitDigits small followed
  have behind : (unitDigits point.val ++ more).drop 4 = more := rfl
  rw [readEscape]
  simp only [read, behind]
  split
  · next digits =>
    rcases single with single | noPartner
    · rw [single, Bool.false_and, if_neg Bool.false_ne_true]
    · obtain ⟨unit, other, notTrailing⟩ := noPartner digits rfl
      simp only [other, notTrailing, Bool.false_eq_true, if_false, ite_self]
  · rfl

theorem readEscape_pair (opening : Nat) (isLeading : first.isLeading = true)
    (isTrailing : second.isTrailing = true) (followed : more ≠ []) :
    readEscape opening ('u' :: (unitDigits first.val ++
        '\\' :: 'u' :: (unitDigits second.val ++ more))) =
      .ok (.ofPair first second, 11) := by
  have range := CodePoint.isLeading_iff.mp isLeading
  have trailingRange := CodePoint.isTrailing_iff.mp isTrailing
  have one := @codeUnit?_unitDigits first ('\\' :: 'u' :: (unitDigits second.val ++ more))
    (by omega) (List.cons_ne_nil _ _)
  have other := @codeUnit?_unitDigits second more (by omega) followed
  have behind : (unitDigits first.val ++ '\\' :: 'u' :: (unitDigits second.val ++ more)).drop 4 =
      '\\' :: 'u' :: (unitDigits second.val ++ more) := rfl
  have long : 4 < (unitDigits second.val ++ more).length := by
    have filled := List.length_pos_iff.mpr followed
    rw [List.length_append]
    exact Nat.lt_add_of_pos_right filled
  rw [readEscape]
  simp only [one, behind, isLeading, long, other, isTrailing, decide_true, Bool.and_self, if_true]

end Escapes

section Points

variable {c : Char} {point first second : CodePoint} {opening : Nat} {layout : Layout}
  {more rest : List Char}

/-- A reader has taken one more code point. -/
def taking (point : CodePoint) (read : Except Stop (CodeText × List Char)) :
    Except Stop (CodeText × List Char) :=
  read.map fun taken => (point :: taken.1, taken.2)

theorem readString_escape (escape : List Char)
    (read : readEscape opening (escape ++ more) = .ok (point, escape.length)) :
    readString opening ('\\' :: (escape ++ more)) = taking point (readString opening more) := by
  rw [readString, if_neg (by decide), if_pos rfl, read]
  simp only [List.drop_left]
  cases readString opening more <;> rfl

theorem readString_visible (notQuote : c ≠ '"') (notBackslash : c ≠ '\\')
    (printed : ¬ c.toNat ≤ 0x1F) :
    readString opening (c :: more) = taking (.ofChar c) (readString opening more) := by
  rw [readString, if_neg notQuote, if_neg notBackslash, if_neg printed]
  cases readString opening more <;> rfl

theorem readString_unitEscape (small : point.val < 0x10000)
    (single : point.isLeading = false ∨ NoPartner more) (followed : more ≠ []) :
    readString opening (unitEscape point.val ++ more) =
      taking point (readString opening more) := by
  rw [unitEscape_eq small]
  exact readString_escape ('u' :: unitDigits point.val)
    (readEscape_unit opening small single followed)

/-- A character has one unit, or it has two that are a leading surrogate and a trailing one. -/
theorem codeEscape_cases (c : Char) :
    (c.toNat < 0x10000 ∧ codeEscape c.toNat = unitEscape c.toNat) ∨
      ∃ first second : CodePoint, first.isLeading = true ∧ second.isTrailing = true ∧
        .ofPair first second = CodePoint.ofChar c ∧
        codeEscape c.toNat = unitEscape first.val ++ unitEscape second.val := by
  rw [codeEscape]
  split
  · next small => exact .inl ⟨small, rfl⟩
  · next large =>
    have range := CodePoint.toNat_lt c
    let first : CodePoint := ⟨0xD800 + (c.toNat - 0x10000) / 0x400, by omega⟩
    let second : CodePoint := ⟨0xDC00 + (c.toNat - 0x10000) % 0x400, by omega⟩
    have isLeading : first.isLeading = true := by
      rw [CodePoint.isLeading_iff]
      simp only [first]
      omega
    have isTrailing : second.isTrailing = true := by
      rw [CodePoint.isTrailing_iff]
      simp only [second]
      omega
    refine .inr ⟨first, second, isLeading, isTrailing, Fin.ext ?_, rfl⟩
    rw [CodePoint.val_ofPair isLeading isTrailing]
    simp only [first, second, CodePoint.ofChar]
    omega

/-- The escape of a character is read as the character, be it by one unit or by two. -/
theorem readString_codeEscape (followed : more ≠ []) :
    readString opening (codeEscape c.toNat ++ more) =
      taking (.ofChar c) (readString opening more) := by
  rcases codeEscape_cases c with ⟨small, one⟩ | ⟨first, second, isLeading, isTrailing, same, two⟩
  · rw [one]
    exact @readString_unitEscape (.ofChar c) _ _ small (.inl (CodePoint.not_isLeading_ofChar c))
      followed
  · have range := CodePoint.isLeading_iff.mp isLeading
    have trailingRange := CodePoint.isTrailing_iff.mp isTrailing
    have read := readEscape_pair opening isLeading isTrailing followed
    rw [same] at read
    rw [two, unitEscape_eq (by omega), unitEscape_eq (by omega)]
    exact readString_escape
      ('u' :: (unitDigits first.val ++ '\\' :: 'u' :: unitDigits second.val)) read

/-- A character is written as an escape of one letter, as itself, or by its code. -/
inductive IsWritten (layout : Layout) (c : Char) : List Char → Prop
  | letter {letter : Char} (image : escapedChar? letter = some c) (visible : IsVisible letter) :
      IsWritten layout c ['\\', letter]
  | itself (notQuote : c ≠ '"') (notBackslash : c ≠ '\\') (printed : ¬ c.toNat ≤ 0x1F)
      (visible : layout.escapesDelete = true → IsVisible c) : IsWritten layout c [c]
  | code : IsWritten layout c (codeEscape c.toNat)

theorem isWritten_writeChar (layout : Layout) (c : Char) :
    IsWritten layout c (writeChar layout c) := by
  by_cases quote : c = '"'
  · exact quote ▸ .letter rfl (by decide)
  by_cases backslash : c = '\\'
  · exact backslash ▸ .letter rfl (by decide)
  by_cases feed : c = '\n'
  · exact feed ▸ .letter rfl (by decide)
  by_cases ending : c = '\r'
  · exact ending ▸ .letter rfl (by decide)
  by_cases tab : c = '\t'
  · exact tab ▸ .letter rfl (by decide)
  by_cases form : c = '\x0c'
  · exact form ▸ .letter rfl (by decide)
  by_cases back : c = '\x08'
  · exact back ▸ .letter rfl (by decide)
  rw [writeChar, if_neg quote, if_neg backslash, if_neg feed, if_neg ending, if_neg tab,
    if_neg form, if_neg back]
  split
  · next delete =>
    refine .itself quote backslash (by rw [delete.1]; decide) fun escapes => ?_
    rw [delete.2] at escapes
    cases escapes
  · split
    · next visible =>
      refine .itself quote backslash (fun small => ?_) fun _ => visible
      have least : 32 ≤ c.toNat := visible.1
      omega
    · exact .code

theorem readEscape_letter {letter : Char} (image : escapedChar? letter = some c) :
    readEscape opening (letter :: more) = .ok (.ofChar c, 1) := by
  have notUnit : letter ≠ 'u' := by
    rintro rfl
    cases image
  rw [readEscape.eq_def]
  split
  · next none => cases none
  · next unit => exact absurd (List.cons.inj unit).1 notUnit
  · next shape =>
    cases shape
    rw [image]

/-- What is written for a character is read as that character. -/
theorem readString_writeChar (followed : more ≠ []) :
    readString opening (writeChar layout c ++ more) =
      taking (.ofChar c) (readString opening more) := by
  have shape := isWritten_writeChar layout c
  generalize writeChar layout c = text at shape
  cases shape with
  | letter image visible => exact readString_escape [_] (readEscape_letter image)
  | itself notQuote notBackslash printed visible =>
      exact readString_visible notQuote notBackslash printed
  | code => exact readString_codeEscape followed

theorem writePoint_ofChar (layout : Layout) (c : Char) :
    writePoint layout (.ofChar c) = writeChar layout c := by
  rw [writePoint, CodePoint.char?_ofChar]

theorem writePoint_of_isLeading (layout : Layout) (isLeading : point.isLeading = true) :
    writePoint layout point = unitEscape point.val := by
  rw [writePoint, CodePoint.char?_of_isLeading isLeading]

theorem writePoint_of_isTrailing (layout : Layout) (isTrailing : point.isTrailing = true) :
    writePoint layout point = unitEscape point.val := by
  rw [writePoint, CodePoint.char?_of_isTrailing isTrailing]

/-- A code point that is no character is written as one unit. -/
theorem writePoint_cases (layout : Layout) (point : CodePoint) :
    (∃ c, point = .ofChar c) ∨
      point.val < 0x10000 ∧ writePoint layout point = unitEscape point.val := by
  rcases CodePoint.cases_char point with isChar | isLeading | isTrailing
  · exact .inl isChar
  · have range := CodePoint.isLeading_iff.mp isLeading
    exact .inr ⟨by omega, writePoint_of_isLeading layout isLeading⟩
  · have range := CodePoint.isTrailing_iff.mp isTrailing
    exact .inr ⟨by omega, writePoint_of_isTrailing layout isTrailing⟩

/-- What is written for a code point is read as that code point. Behind a leading surrogate there
must be no partner. -/
theorem readString_writePoint (single : point.isLeading = false ∨ NoPartner more)
    (followed : more ≠ []) :
    readString opening (writePoint layout point ++ more) =
      taking point (readString opening more) := by
  rcases writePoint_cases layout point with ⟨c, rfl⟩ | ⟨small, unit⟩
  · rw [writePoint_ofChar]
    exact readString_writeChar followed
  · rw [unit]
    exact readString_unitEscape small single followed

theorem writeChar_of_large (layout : Layout) (large : 0x10000 ≤ c.toNat) :
    writeChar layout c = codeEscape c.toNat := by
  have apart {other : Char} (small : other.toNat < 0x10000) : c ≠ other := by
    rintro rfl
    omega
  have beyond : ¬ c < '\x7f' := by
    intro below
    have less : c.toNat < 127 := below
    omega
  rw [writeChar, if_neg (apart (by decide)), if_neg (apart (by decide)),
    if_neg (apart (by decide)), if_neg (apart (by decide)), if_neg (apart (by decide)),
    if_neg (apart (by decide)), if_neg (apart (by decide)),
    if_neg fun delete => apart (by decide) delete.1, if_neg fun visible => beyond visible.2]

/-- A pair is written as the character that it stands for. -/
theorem writePoint_pair (layout : Layout) (isLeading : first.isLeading = true)
    (isTrailing : second.isTrailing = true) :
    writePoint layout (.ofPair first second) =
      writePoint layout first ++ writePoint layout second := by
  obtain ⟨c, same, code⟩ := CodePoint.ofPair_eq_ofChar isLeading isTrailing
  have range := CodePoint.isLeading_iff.mp isLeading
  have trailingRange := CodePoint.isTrailing_iff.mp isTrailing
  have high : 0xD800 + (c.toNat - 0x10000) / 0x400 = first.val := by omega
  have low : 0xDC00 + (c.toNat - 0x10000) % 0x400 = second.val := by omega
  rw [same, writePoint_ofChar, writeChar_of_large layout (by omega), codeEscape,
    if_neg (by omega), high, low, writePoint_of_isLeading layout isLeading,
    writePoint_of_isTrailing layout isTrailing]

theorem noPartner_unitEscape (small : point.val < 0x10000) (notTrailing : point.isTrailing = false)
    (followed : more ≠ []) : NoPartner (unitEscape point.val ++ more) := by
  rw [unitEscape_eq small]
  intro digits same
  cases same
  exact ⟨point, codeUnit?_unitDigits small followed, notTrailing⟩

/-- The escape of a code point is the one of a trailing surrogate for these only. -/
theorem noPartner_writePoint (notTrailing : point.isTrailing = false) (followed : more ≠ []) :
    NoPartner (writePoint layout point ++ more) := by
  rcases writePoint_cases layout point with ⟨c, rfl⟩ | ⟨small, unit⟩
  · rw [writePoint_ofChar]
    have shape := isWritten_writeChar layout c
    generalize writeChar layout c = text at shape
    cases shape with
    | letter image visible =>
        intro digits same
        cases same
        cases image
    | itself notQuote notBackslash printed visible =>
        intro digits same
        exact absurd (List.cons.inj same).1 notBackslash
    | code =>
        rcases codeEscape_cases c with ⟨small, one⟩ | ⟨first, second, isLeading, isTrailing, -, two⟩
        · rw [one]
          exact @noPartner_unitEscape (.ofChar c) _ small notTrailing followed
        · have range := CodePoint.isLeading_iff.mp isLeading
          rw [two, List.append_assoc]
          exact noPartner_unitEscape (by omega) (CodePoint.not_isTrailing_of_isLeading isLeading)
            (by simp [followed])
  · rw [unit]
    exact noPartner_unitEscape small notTrailing followed

/-- The fused text is got back from what was written for a text, and what follows its closing quote
is left. -/
theorem readString_flatMap (text : CodeText) :
    readString opening (text.flatMap (writePoint layout) ++ '"' :: rest) =
      .ok (text.fuse, rest) := by
  have quoted : NoPartner ('"' :: rest) := nofun
  fun_induction CodeText.fuse text with
  | case1 first second others pair inductionHypothesis =>
      obtain ⟨isLeading, isTrailing⟩ := Bool.and_eq_true_iff.mp pair
      obtain ⟨c, same, -⟩ := CodePoint.ofPair_eq_ofChar isLeading isTrailing
      have single : (CodePoint.ofPair first second).isLeading = false :=
        same ▸ CodePoint.not_isLeading_ofChar c
      rw [List.flatMap_cons, List.flatMap_cons, ← List.append_assoc,
        ← writePoint_pair layout isLeading isTrailing, List.append_assoc,
        readString_writePoint (.inl single) (by simp), inductionHypothesis]
      rfl
  | case2 first second others noPair inductionHypothesis =>
      have single : first.isLeading = false ∨
          NoPartner ((second :: others).flatMap (writePoint layout) ++ '"' :: rest) := by
        rw [Bool.and_eq_true, not_and_or, Bool.not_eq_true, Bool.not_eq_true] at noPair
        refine noPair.imp_right fun notTrailing => ?_
        rw [List.flatMap_cons, List.append_assoc]
        exact noPartner_writePoint notTrailing (by simp)
      rw [List.flatMap_cons, List.append_assoc, readString_writePoint single (by simp),
        inductionHypothesis]
      rfl
  | case3 text short =>
      cases text with
      | nil => rw [List.flatMap_nil, List.nil_append, readString, if_pos rfl]
      | cons point others =>
          cases others with
          | nil =>
              rw [List.flatMap_singleton, readString_writePoint (.inr quoted) (by simp), readString,
                if_pos rfl]
              rfl
          | cons next later => exact absurd rfl (short point next later)

/-- A text is written as its fused text. -/
theorem writeString_fuse (layout : Layout) (text : CodeText) :
    writeString layout text.fuse = writeString layout text := by
  rw [writeString, writeString]
  congr 2
  fun_induction CodeText.fuse text with
  | case1 first second others pair inductionHypothesis =>
      obtain ⟨isLeading, isTrailing⟩ := Bool.and_eq_true_iff.mp pair
      rw [List.flatMap_cons, writePoint_pair layout isLeading isTrailing, List.append_assoc,
        inductionHypothesis]
      rfl
  | case2 first second others noPair inductionHypothesis =>
      rw [List.flatMap_cons, inductionHypothesis]
      rfl
  | case3 => rfl

/-- Two texts are written alike exactly when they are the same text when they are fused. -/
theorem writeString_inj {text other : CodeText} :
    writeString layout text = writeString layout other ↔ text.fuse = other.fuse := by
  constructor
  · intro same
    have read := congrArg (readString 0) (List.cons.inj same).2
    rw [readString_flatMap, readString_flatMap] at read
    exact (Prod.mk.inj (Except.ok.inj read)).1
  · intro same
    rw [← writeString_fuse layout text, same, writeString_fuse]

theorem isVisible_of_mem_unitEscape {unit : Nat} (small : unit < 0x10000)
    (member : c ∈ unitEscape unit) : IsVisible c := by
  have digit {value : Nat} (isDigit : value < 16) (same : c = Nat.digitChar value) :
      IsVisible c := same ▸ isVisible_digitChar isDigit
  rw [unitEscape_eq small, unitDigits] at member
  simp only [List.mem_cons, List.not_mem_nil, or_false] at member
  rcases member with rfl | rfl | first | second | third | fourth
  · decide
  · decide
  · exact digit (by omega) first
  · exact digit (by omega) second
  · exact digit (by omega) third
  · exact digit (by omega) fourth

/-- All that is written for a character is visible when the delete character is escaped. -/
theorem isVisible_of_mem_writeChar {written : Char} (escapes : layout.escapesDelete = true)
    (member : written ∈ writeChar layout c) : IsVisible written := by
  have shape := isWritten_writeChar layout c
  generalize writeChar layout c = text at shape member
  cases shape with
  | letter image visible =>
      rcases List.mem_cons.mp member with rfl | last
      · decide
      · exact List.mem_singleton.mp last ▸ visible
  | itself notQuote notBackslash printed visible =>
      exact List.mem_singleton.mp member ▸ visible escapes
  | code =>
      have range := CodePoint.toNat_lt c
      rw [codeEscape] at member
      split at member
      · next small => exact isVisible_of_mem_unitEscape small member
      · rcases List.mem_append.mp member with leading | trailing
        · exact isVisible_of_mem_unitEscape (by omega) leading
        · exact isVisible_of_mem_unitEscape (by omega) trailing

theorem isVisible_of_mem_writePoint (escapes : layout.escapesDelete = true)
    (member : c ∈ writePoint layout point) : IsVisible c := by
  rcases writePoint_cases layout point with ⟨original, rfl⟩ | ⟨small, unit⟩
  · rw [writePoint_ofChar] at member
    exact isVisible_of_mem_writeChar escapes member
  · rw [unit] at member
    exact isVisible_of_mem_unitEscape small member

theorem isVisible_of_mem_writeString {text : CodeText} (escapes : layout.escapesDelete = true)
    (member : c ∈ writeString layout text) : IsVisible c := by
  rw [writeString] at member
  rcases List.mem_cons.mp member with rfl | inside
  · decide
  · rcases List.mem_append.mp inside with content | closing
    · obtain ⟨original, -, written⟩ := List.mem_flatMap.mp content
      exact isVisible_of_mem_writePoint escapes written
    · rw [List.mem_singleton.mp closing]
      decide

end Points

end AssetBundler.Json
