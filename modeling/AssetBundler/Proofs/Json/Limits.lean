import AssetBundler.Json.Parser
import Mathlib.Data.List.Infix

/-!
The limits of the reader. It stops at a limit only when the text holds a run of too many digits, or
more opening brackets than there are levels.
-/

namespace AssetBundler.Json

/-- The brackets that open a level. -/
def isOpening (c : Char) : Bool := c == '[' || c == '\x7b'

/-- A run of digits that is too long for a whole number. -/
def HasLongNumber (text : List Char) : Prop :=
  ∃ digits, digits <:+: text ∧ 4300 < digits.length ∧ ∀ c ∈ digits, isDigit c = true

/-- A text that a reader with so many levels left cannot take. -/
def Exceeds (depth : Nat) (text : List Char) : Prop :=
  HasLongNumber text ∨ depth < text.countP isOpening

theorem Exceeds.ofSuffix {depth : Nat} {inner text : List Char} (isEnd : inner <:+ text)
    (exceeds : Exceeds depth inner) : Exceeds depth text := by
  rcases exceeds with ⟨digits, within, long, all⟩ | deep
  · exact .inl ⟨digits, within.trans isEnd.isInfix, long, all⟩
  · exact .inr (deep.trans_le isEnd.sublist.countP_le)

/-- Behind a bracket there is one level less. -/
theorem Exceeds.nested {depth : Nat} {c : Char} {inner rest : List Char}
    (opens : isOpening c = true) (isEnd : inner <:+ rest) (exceeds : Exceeds depth inner) :
    Exceeds (depth + 1) (c :: rest) := by
  rcases exceeds.ofSuffix isEnd with ⟨digits, within, long, all⟩ | deep
  · exact .inl ⟨digits, within.trans (List.suffix_cons c rest).isInfix, long, all⟩
  · right
    rw [List.countP_cons_of_pos opens]
    omega

/-- What a reader leaves is an end of its text, and it stops at a limit for a cause. -/
def IsBounded {Value : Type} (depth : Nat) (text : List Char) :
    Except Stop (Value × List Char) → Prop
  | .ok (_, rest) => rest <:+ text
  | .error stop => stop.fault.isLimit = true → Exceeds depth text

namespace IsBounded

variable {Value Result : Type} {depth : Nat} {text inner : List Char}

theorem error {stop : Stop} (harmless : stop.fault.isLimit = false) :
    IsBounded depth text (.error stop : Except Stop (Value × List Char)) := by
  intro isLimit
  rw [harmless] at isLimit
  cases isLimit

theorem ofSuffix {outcome : Except Stop (Value × List Char)} (isEnd : inner <:+ text)
    (bounded : IsBounded depth inner outcome) : IsBounded depth text outcome := by
  cases outcome with
  | ok taken => exact List.IsSuffix.trans bounded isEnd
  | error stop => exact fun isLimit => (bounded isLimit).ofSuffix isEnd

theorem nested {outcome : Except Stop (Value × List Char)} {c : Char} {rest : List Char}
    (opens : isOpening c = true) (isEnd : inner <:+ rest)
    (bounded : IsBounded depth inner outcome) :
    IsBounded (depth + 1) (c :: rest) outcome := by
  cases outcome with
  | ok taken => exact (List.IsSuffix.trans bounded isEnd).trans (List.suffix_cons c rest)
  | error stop => exact fun isLimit => (bounded isLimit).nested opens isEnd

theorem bind {outcome : Except Stop (Value × List Char)}
    {next : Value × List Char → Except Stop (Result × List Char)}
    (first : IsBounded depth text outcome)
    (second : ∀ value rest, rest <:+ text → IsBounded depth text (next (value, rest))) :
    IsBounded depth text (outcome >>= next) := by
  cases outcome with
  | ok taken => exact second taken.1 taken.2 first
  | error stop => exact first

end IsBounded

theorem skipSpaces_suffix (text : List Char) : skipSpaces text <:+ text :=
  List.dropWhile_suffix isSpace

/-- No fault of an escape is a limit. -/
theorem readEscape_error {opening : Nat} {text : List Char} {stop : Stop}
    (refused : readEscape opening text = .error stop) : stop.fault.isLimit = false := by
  unfold readEscape at refused
  grind [Fault.isLimit]

theorem isBounded_readString (opening depth : Nat) (text : List Char) :
    IsBounded depth text (readString opening text) := by
  fun_induction readString opening text with
  | case1 => exact IsBounded.error rfl
  | case2 rest => exact List.suffix_cons _ rest
  | case3 rest stop refused => exact IsBounded.error (readEscape_error refused)
  | case4 rest image length _ stop refused _ inductionHypothesis =>
      rw [refused] at inductionHypothesis
      exact inductionHypothesis.ofSuffix
        ((List.drop_suffix length rest).trans (List.suffix_cons _ rest))
  | case5 rest image length _ images after taken _ inductionHypothesis =>
      rw [taken] at inductionHypothesis
      have isEnd : after <:+ rest := List.IsSuffix.trans inductionHypothesis (List.drop_suffix _ _)
      exact isEnd.trans (List.suffix_cons _ rest)
  | case6 => exact IsBounded.error rfl
  | case7 c rest _ _ _ stop refused inductionHypothesis =>
      rw [refused] at inductionHypothesis
      exact inductionHypothesis.ofSuffix (List.suffix_cons c rest)
  | case8 c rest _ _ _ images after taken inductionHypothesis =>
      rw [taken] at inductionHypothesis
      exact List.IsSuffix.trans inductionHypothesis (List.suffix_cons c rest)

theorem readFraction_suffix (text : List Char) : (readFraction text).2 <:+ text := by
  unfold readFraction
  split
  · split
    · exact List.suffix_rfl
    · exact (List.dropWhile_suffix isDigit).trans (List.suffix_cons _ _)
  · exact List.suffix_rfl

theorem readExponent_suffix (text : List Char) : (readExponent text).2 <:+ text := by
  unfold readExponent
  split
  · split
    · simp only
      split
      · exact List.suffix_rfl
      · exact (List.dropWhile_suffix isDigit).trans
          ((List.drop_suffix _ _).trans (List.suffix_cons _ _))
    · exact List.suffix_rfl
  · exact List.suffix_rfl

theorem readWhole_isLeading (text : List Char) : readWhole text <+: text := by
  unfold readWhole
  split
  · exact ⟨_, rfl⟩
  · exact List.takeWhile_prefix isDigit

theorem isDigit_of_mem_readWhole {text : List Char} : ∀ c ∈ readWhole text, isDigit c = true := by
  unfold readWhole
  split
  · simp [isDigit]
  · exact List.all_eq_true.mp List.all_takeWhile

theorem isBounded_readNumber (depth : Nat) (text : List Char) :
    IsBounded depth text (readNumber text) := by
  have unsigned : (if text.head? == some '-' then text.drop 1 else text) <:+ text := by
    split
    · exact List.drop_suffix 1 text
    · exact List.suffix_rfl
  unfold readNumber
  simp only
  generalize (if text.head? == some '-' then text.drop 1 else text) = digits at unsigned ⊢
  split
  · exact IsBounded.error rfl
  · have left :
        (readExponent (readFraction (digits.drop (readWhole digits).length)).2).2 <:+ text :=
      (readExponent_suffix _).trans ((readFraction_suffix _).trans
        ((List.drop_suffix _ _).trans unsigned))
    split
    · split
      · next long =>
        intro _
        left
        exact ⟨readWhole digits, (readWhole_isLeading digits).isInfix.trans unsigned.isInfix, long,
          isDigit_of_mem_readWhole⟩
      · exact left
    · exact left

theorem readName?_suffix {text rest : List Char} {value : Json CodeText}
    (found : readName? text = some (value, rest)) : rest <:+ text := by
  obtain ⟨named, -, matched⟩ := List.exists_of_findSome?_eq_some found
  split at matched
  · cases matched
    exact List.drop_suffix _ _
  · cases matched

/-- Reading of a value, of items and of fields. The three call each other with less fuel. -/
theorem isBounded_reads (fuel : Nat) :
    (∀ depth text, IsBounded depth text (readValue fuel depth text)) ∧
      (∀ depth text, IsBounded depth text (readItems fuel depth text)) ∧
      ∀ depth text, IsBounded depth text (readFields fuel depth text) := by
  induction fuel with
  | zero =>
      refine ⟨fun depth text => ?_, fun depth text => ?_, fun depth text => ?_⟩
      · rw [readValue.eq_def]
        exact IsBounded.error rfl
      · rw [readItems.eq_def]
        exact IsBounded.error rfl
      · rw [readFields.eq_def]
        exact IsBounded.error rfl
  | succ fuel inductionHypothesis =>
      obtain ⟨value, items, fields⟩ := inductionHypothesis
      refine ⟨fun depth text => ?_, fun depth text => ?_, fun depth text => ?_⟩
      · cases text with
        | nil =>
            rw [readValue.eq_def]
            exact IsBounded.error rfl
        | cons c rest =>
            have inner := skipSpaces_suffix rest
            rw [readValue.eq_def]
            simp only
            split_ifs with quote bracket brace
            · have content := isBounded_readString (c :: rest).length depth rest
              refine (content.ofSuffix (List.suffix_cons c rest)).bind ?_
              exact fun _ after isEnd => isEnd
            · subst bracket
              split
              · exact fun _ => .inr (by simp [isOpening])
              · next closed =>
                exact (List.suffix_cons _ _).trans ((closed ▸ inner).trans (List.suffix_cons _ _))
              · next depth _ =>
                refine IsBounded.nested rfl inner (IsBounded.bind (items depth _) ?_)
                exact fun _ _ isEnd => isEnd
            · subst brace
              split
              · exact fun _ => .inr (by simp [isOpening])
              · next closed =>
                exact (List.suffix_cons _ _).trans ((closed ▸ inner).trans (List.suffix_cons _ _))
              · next depth _ =>
                refine IsBounded.nested rfl inner (IsBounded.bind (fields depth _) ?_)
                exact fun _ _ isEnd => isEnd
            · split
              · next found => exact readName?_suffix found
              · exact isBounded_readNumber depth _
      · rw [readItems.eq_def]
        simp only
        refine (value depth text).bind fun item rest isEnd => ?_
        have behind := (skipSpaces_suffix rest).trans isEnd
        split
        · next closed => exact (List.suffix_cons _ _).trans (closed ▸ behind)
        · next parted =>
          have more := (skipSpaces_suffix _).trans ((List.suffix_cons _ _).trans (parted ▸ behind))
          refine IsBounded.bind ((items depth _).ofSuffix more) ?_
          exact fun _ _ isEnd => isEnd
        · exact IsBounded.error rfl
      · rw [readFields.eq_def]
        simp only
        split
        · next level quoted same =>
          cases same
          refine ((isBounded_readString _ depth _).ofSuffix (List.suffix_cons _ _)).bind ?_
          intro name rest isEnd
          have named := (skipSpaces_suffix rest).trans isEnd
          split
          · next given =>
            have content := (skipSpaces_suffix _).trans
              ((List.suffix_cons _ _).trans (given ▸ named))
            refine IsBounded.bind ((value depth _).ofSuffix content) fun item rest isEnd => ?_
            have behind := (skipSpaces_suffix rest).trans isEnd
            split
            · next closed => exact (List.suffix_cons _ _).trans (closed ▸ behind)
            · next parted =>
              have more := (skipSpaces_suffix _).trans
                ((List.suffix_cons _ _).trans (parted ▸ behind))
              refine IsBounded.bind ((fields depth _).ofSuffix more) ?_
              exact fun _ _ isEnd => isEnd
            · exact IsBounded.error rfl
          · exact IsBounded.error rfl
        · exact IsBounded.error rfl

/-- The reader of a document stops at a limit only when the text is beyond it. -/
theorem exceeds_of_load {text : String} {error : ParseError} (refused : load text = .error error)
    (isLimit : error.fault.isLimit = true) : Exceeds nestingLimit text.toList := by
  unfold load at refused
  cases read : readDocument text.toList with
  | ok value =>
      rw [read] at refused
      cases refused
  | error stop =>
      rw [read] at refused
      cases refused
      unfold readDocument at read
      split at read
      · cases read
        cases isLimit
      · have bounded := (isBounded_reads (2 * text.toList.length + 1)).1 nestingLimit
          (skipSpaces text.toList)
        have isEnd := skipSpaces_suffix text.toList
        cases value : readValue (2 * text.toList.length + 1) nestingLimit
          (skipSpaces text.toList) with
        | error other =>
            rw [value] at read bounded
            cases read
            exact (bounded isLimit).ofSuffix isEnd
        | ok taken =>
            rw [value] at read
            simp only [bind, Except.bind] at read
            split at read
            · cases read
            · cases read
              cases isLimit

/-- Too many digits in a row are refused, whatever they are. -/
theorem load_of_digits {first : Char} {digits : List Char} (notZero : first ≠ '0')
    (all : ∀ c ∈ first :: digits, isDigit c = true) (long : 4300 < (first :: digits).length) :
    ∃ error, load (String.ofList (first :: digits)) = .error error ∧
      error.fault = .integerTooLong (first :: digits).length := by
  have isFirst : isDigit first = true := all first List.mem_cons_self
  have other {c : Char} (foreign : isDigit c = false) : first ≠ c := by
    rintro rfl
    rw [isFirst] at foreign
    cases foreign
  have whole : readWhole (first :: digits) = first :: digits := by
    unfold readWhole
    split
    · next shape =>
      cases shape
      exact absurd rfl notZero
    · rw [← List.append_nil (first :: digits)]
      exact List.takeWhile_append_of_pos all
  have number : readNumber (first :: digits) =
      .error ⟨.integerTooLong (first :: digits).length, (first :: digits).length⟩ := by
    have unsigned : ((first :: digits).head? == some '-') = false := by
      simpa using other rfl
    simp only [readNumber, unsigned, Bool.false_eq_true, if_false, whole, List.isEmpty_cons,
      List.drop_length, readFraction, readExponent, Option.isNone_none, Bool.and_self, if_true,
      if_pos long]
  have nameless : readName? (first :: digits) = none := by
    have apart {c : Char} (text : List Char) (foreign : isDigit c = false) :
        (c :: text).isPrefixOf (first :: digits) = false := by
      simp [List.isPrefixOf, (other foreign).symm]
    rw [readName?, List.findSome?_eq_none_iff]
    simp only [namedValues, List.forall_mem_cons]
    refine ⟨?_, ?_, ?_, ?_, ?_, ?_, nofun⟩
    all_goals exact if_neg (Bool.eq_false_iff.mp (apart _ rfl))
  have spaces : skipSpaces (first :: digits) = first :: digits := by
    have notSpace : isSpace first = false := by
      simp [isSpace, other (c := ' ') rfl, other (c := '\t') rfl, other (c := '\n') rfl,
        other (c := '\x0d') rfl]
    rw [skipSpaces, List.dropWhile_cons_of_neg (Bool.eq_false_iff.mp notSpace)]
  have noMark : ((first :: digits).head? == some '\uFEFF') = false := by
    simpa using other rfl
  have read : readDocument (first :: digits) = .error
      ⟨.integerTooLong (first :: digits).length, (first :: digits).length⟩ := by
    rw [readDocument, noMark, if_neg Bool.false_ne_true, spaces, readValue.eq_def]
    simp only [other (c := '"') rfl, other (c := '[') rfl, other (c := '\x7b') rfl, if_false,
      nameless, number]
    rfl
  refine ⟨.at (first :: digits) ⟨.integerTooLong (first :: digits).length,
    (first :: digits).length⟩, ?_, rfl⟩
  rw [load, String.toList_ofList, read]

end AssetBundler.Json
