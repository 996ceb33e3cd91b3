import AssetBundler.Proofs.Text.Lines
import AssetBundler.SourceMap.Basic

/-!
Reading of mappings. A line is read segment by segment, and all numbers but the column of the output
are counted from the segment before, also across lines.
-/

namespace AssetBundler.SourceMap

/-- The value of a digit of base sixty-four. -/
def digitOf? (c : Char) : Option Nat :=
  if 'A' ≤ c ∧ c ≤ 'Z' then some (c.toNat - 'A'.toNat)
  else if 'a' ≤ c ∧ c ≤ 'z' then some (c.toNat - 'a'.toNat + 26)
  else if '0' ≤ c ∧ c ≤ '9' then some (c.toNat - '0'.toNat + 52)
  else if c = '+' then some 62
  else if c = '/' then some 63
  else none

theorem digitOf?_digitChar {digit : Nat} (small : digit < 64) :
    digitOf? (digitChar digit) = some digit := by
  have all : ∀ digit < 64, digitOf? (digitChar digit) = some digit := by decide +kernel
  exact all digit small

def unfoldSign (number : Nat) : Int :=
  if number % 2 = 1 then -((number / 2 : Nat) : Int) else (number / 2 : Nat)

theorem unfoldSign_foldSign (value : Int) : unfoldSign (foldSign value) = value := by
  unfold unfoldSign foldSign
  split <;> split <;> omega

/-- The numbers of a segment. The number that is under way has a value so far, and its next digit
has a weight. No number may be under way at the end. -/
def readNumbers (weight value : Nat) : List Char → Option (List Int)
  | [] => if weight = 1 then some [] else none
  | c :: rest =>
      match digitOf? c with
      | none => none
      | some digit =>
          if digit < 32 then
            (readNumbers 1 0 rest).map (unfoldSign (value + weight * digit) :: ·)
          else readNumbers (weight * 32) (value + weight * (digit - 32)) rest

theorem readNumbers_encodeDigits (number weight value : Nat) (rest : List Char) :
    readNumbers weight value ((encodeDigits number).map digitChar ++ rest) =
      (readNumbers 1 0 rest).map (unfoldSign (value + weight * number) :: ·) := by
  induction number using encodeDigits.induct generalizing weight value with
  | case1 number small =>
      rw [encodeDigits, if_pos small]
      simp only [List.map_cons, List.map_nil, List.cons_append, List.nil_append, readNumbers,
        digitOf?_digitChar (Nat.lt_trans small (by decide : 32 < 64)), if_pos small]
  | case2 number large inductionHypothesis =>
      have fits : number % 32 + 32 < 64 := by omega
      have continued : ¬ number % 32 + 32 < 32 := by omega
      have total : value + weight * (number % 32) + weight * 32 * (number / 32) =
          value + weight * number := by
        rw [Nat.add_assoc, Nat.mul_assoc, ← Nat.mul_add, Nat.mod_add_div]
      rw [encodeDigits, if_neg large]
      simp only [List.map_cons, List.cons_append, readNumbers, digitOf?_digitChar fits,
        if_neg continued, Nat.add_sub_cancel, inductionHypothesis, total]

theorem readNumbers_encodeVlq (value : Int) (rest : List Char) :
    readNumbers 1 0 ((encodeVlq value).toList ++ rest) =
      (readNumbers 1 0 rest).map (value :: ·) := by
  rw [encodeVlq, String.toList_ofList, readNumbers_encodeDigits]
  simp only [Nat.zero_add, Nat.one_mul, unfoldSign_foldSign]

/-- Where a segment starts in the output line, and where in the sources. -/
structure Position where
  column : Int
  source : Int
  line : Int
  sourceColumn : Int
  deriving DecidableEq, Repr

/-- A segment moves on from the one before. It may name an identifier besides. -/
def Position.move (last : Position) : List Int → Option Position
  | [column, source, line, sourceColumn] | [column, source, line, sourceColumn, _] =>
      some ⟨last.column + column, last.source + source, last.line + line,
        last.sourceColumn + sourceColumn⟩
  | _ => none

def readSegments (last : Position) : List String → Option (List Position)
  | [] => some []
  | text :: rest => do
      let position ← last.move (← readNumbers 1 0 text.toList)
      let others ← readSegments position rest
      return position :: others

/-- The column starts anew with each line. -/
def readLines (last : Position) : List String → Option (List (List Position))
  | [] => some []
  | line :: rest => do
      let positions ← readSegments { last with column := 0 }
        (if line = "" then [] else Text.splitOn ',' line)
      let others ← readLines (positions.getLast?.getD last) rest
      return positions :: others

/-- The segments of each line of the output. -/
def readMappings (mappings : String) : Option (List (List Position)) :=
  readLines ⟨0, 0, 0, 0⟩ (Text.splitOn ';' mappings)

/-- The position of a target at the start of an output line. -/
def Target.position (target : Target) : Position := ⟨0, target.source, target.line, 0⟩

theorem readNumbers_segment (last target : Target) :
    readNumbers 1 0 (segment last target).toList =
      some [0, (target.source : Int) - last.source, (target.line : Int) - last.line, 0] := by
  have final := readNumbers_encodeVlq 0 []
  rw [List.append_nil] at final
  simp only [segment, String.toList_append, List.append_assoc, readNumbers_encodeVlq, final]
  rfl

theorem mem_alphabet_of_mem_encodeVlq {value : Int} {c : Char}
    (member : c ∈ (encodeVlq value).toList) : c ∈ alphabet := by
  rw [encodeVlq, String.toList_ofList] at member
  obtain ⟨digit, -, rfl⟩ := List.mem_map.mp member
  rw [digitChar, List.getD_eq_getElem?_getD]
  cases found : alphabet[digit]? with
  | some c => exact List.mem_of_getElem? found
  | none => decide +kernel

theorem mem_alphabet_of_mem_segment {last target : Target} {c : Char}
    (member : c ∈ (segment last target).toList) : c ∈ alphabet := by
  simp only [segment, String.toList_append, List.mem_append] at member
  rcases member with ((found | found) | found) | found <;>
    exact mem_alphabet_of_mem_encodeVlq found

theorem segment_ne_empty (last target : Target) : segment last target ≠ "" := by
  have start : (encodeVlq 0).toList = ['A'] := by decide +kernel
  intro same
  have none := congrArg String.toList same
  simp [segment, start] at none

/-- The reader stands where the writer stood, so it comes to the targets of the writer. -/
theorem readLines_segmentsFrom (last : Target) (targets : List Target) :
    readLines last.position (segmentsFrom last targets) =
      some (targets.map fun target => [target.position]) := by
  induction targets generalizing last with
  | nil => rfl
  | cons target rest inductionHypothesis =>
      have single : Text.splitOn ',' (segment last target) = [segment last target] := by
        apply Text.splitOn_of_not_mem
        intro member
        have inAlphabet := mem_alphabet_of_mem_segment member
        revert inAlphabet
        decide +kernel
      have moved : last.position.move
          [0, (target.source : Int) - last.source, (target.line : Int) - last.line, 0] =
            some target.position := by
        simp only [Position.move, Target.position, Option.some.injEq, Position.mk.injEq]
        omega
      have here : readSegments { last.position with column := 0 } [segment last target] =
          some [target.position] := by
        simp only [readSegments, readNumbers_segment]
        exact congrArg (fun position => position.bind fun position => some [position]) moved
      rw [segmentsFrom, readLines, if_neg (segment_ne_empty last target), single, here]
      simp only [Option.bind_eq_bind, Option.bind_some, List.getLast?_singleton, Option.getD_some,
        inductionHypothesis]
      rfl

theorem mem_segmentsFrom {last : Target} {targets : List Target} {text : String}
    (member : text ∈ segmentsFrom last targets) :
    ∃ before target, text = segment before target := by
  induction targets generalizing last with
  | nil => cases member
  | cons target rest inductionHypothesis =>
      rcases List.mem_cons.mp member with same | later
      · exact ⟨last, target, same⟩
      · exact inductionHypothesis later

theorem segmentsFrom_ne_nil {last : Target} {targets : List Target} (filled : targets ≠ []) :
    segmentsFrom last targets ≠ [] := by
  cases targets with
  | nil => exact absurd rfl filled
  | cons target rest => simp [segmentsFrom]

theorem targetsFrom_ne_nil {source : Nat} {sources : List (CodeText × CodeText)}
    (filled : sources ≠ []) : targetsFrom source sources ≠ [] := by
  cases sources with
  | nil => exact absurd rfl filled
  | cons first rest => simp [targetsFrom, Text.pointLines_ne_nil]

/-- The mappings of sources are read as the targets of the output lines, one for each line. -/
theorem readMappings_mappings {map : SourceMap} (filled : map.sources ≠ []) :
    readMappings map.mappings =
      some ((targetsFrom 0 map.sources).map fun target => [target.position]) := by
  have clean : ∀ text ∈ segmentsFrom ⟨0, 0⟩ (targetsFrom 0 map.sources), ';' ∉ text.toList := by
    intro text member inText
    obtain ⟨last, target, rfl⟩ := mem_segmentsFrom member
    have inAlphabet := mem_alphabet_of_mem_segment inText
    revert inAlphabet
    decide +kernel
  have split : Text.splitOn ';' map.mappings =
      segmentsFrom ⟨0, 0⟩ (targetsFrom 0 map.sources) :=
    Text.splitOn_intercalate_clean (segmentsFrom_ne_nil (targetsFrom_ne_nil filled)) clean
  rw [readMappings, split]
  exact readLines_segmentsFrom ⟨0, 0⟩ (targetsFrom 0 map.sources)

end AssetBundler.SourceMap
