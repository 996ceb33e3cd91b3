import AssetBundler.Proofs.SourceMap.Decoder
import Mathlib.Algebra.Group.Nat.Defs
import Mathlib.Data.Nat.Log

/-!
Numerals of base sixty-four. Numerals that stand one behind the other are read back as their
numbers, and no numeral of a number is shorter than the one that is written.
-/

namespace AssetBundler.SourceMap

/-- A digit that says that more digits follow. -/
def Continues (c : Char) : Prop := ∃ digit, digitOf? c = some digit ∧ 32 ≤ digit

def Ends (c : Char) : Prop := ∃ digit, digitOf? c = some digit ∧ digit < 32

/-- All digits but the last one say that more digits follow. -/
def IsNumeral (text : List Char) : Prop :=
  ∃ before last, text = before ++ [last] ∧ (∀ c ∈ before, Continues c) ∧ Ends last

theorem digitOf?_lt {c : Char} {digit : Nat} (read : digitOf? c = some digit) : digit < 64 := by
  unfold digitOf? at read
  split_ifs at read with upper lower figure
  · cases read
    have most : c.toNat ≤ 'Z'.toNat := upper.2
    have bounds : 'A'.toNat = 65 ∧ 'Z'.toNat = 90 := by decide
    omega
  · cases read
    have most : c.toNat ≤ 'z'.toNat := lower.2
    have bounds : 'a'.toNat = 97 ∧ 'z'.toNat = 122 := by decide
    omega
  · cases read
    have most : c.toNat ≤ '9'.toNat := figure.2
    have bounds : '0'.toNat = 48 ∧ '9'.toNat = 57 := by decide
    omega
  · cases read
    decide
  · cases read
    decide

section Writing

theorem isNumeral_encodeDigits (number : Nat) :
    IsNumeral ((encodeDigits number).map digitChar) := by
  induction number using encodeDigits.induct with
  | case1 number small =>
      rw [encodeDigits, if_pos small]
      exact ⟨[], digitChar number, rfl, List.forall_mem_nil _, number,
        digitOf?_digitChar (by omega), small⟩
  | case2 number large inductionHypothesis =>
      obtain ⟨before, last, shape, continued, ended⟩ := inductionHypothesis
      have fits : number % 32 + 32 < 64 := by omega
      have first : Continues (digitChar (number % 32 + 32)) :=
        ⟨_, digitOf?_digitChar fits, by omega⟩
      rw [encodeDigits, if_neg large, List.map_cons, shape]
      exact ⟨_, last, rfl, List.forall_mem_cons.mpr ⟨first, continued⟩, ended⟩

/-- There are as many digits as the number has in base thirty-two. -/
theorem length_encodeDigits (number : Nat) :
    (encodeDigits number).length = Nat.log 32 number + 1 := by
  induction number using encodeDigits.induct with
  | case1 number small =>
      rw [encodeDigits, if_pos small, Nat.log_of_lt small]
      rfl
  | case2 number large inductionHypothesis =>
      have deeper : Nat.log 32 number = Nat.log 32 (number / 32) + 1 :=
        Nat.log_of_one_lt_of_le (by decide) (Nat.le_of_not_lt large)
      rw [encodeDigits, if_neg large, List.length_cons, inductionHypothesis, deeper]

end Writing

section Reading

/-- Of the two ways to give zero a sign the writer takes the smaller one. -/
theorem foldSign_unfoldSign_le (number : Nat) : foldSign (unfoldSign number) ≤ number := by
  unfold foldSign unfoldSign
  split <;> split <;> omega

/-- What is read of so many digits is not larger than these allow. The value of the digits before is
smaller than the weight of the next one. -/
theorem exists_of_readNumbers {weight value : Nat} {text : List Char} {number : Int}
    (below : value < weight) (read : readNumbers weight value text = some [number]) :
    ∃ total, number = unfoldSign total ∧ total < weight * 32 ^ text.length := by
  induction text generalizing weight value with
  | nil =>
      rw [readNumbers] at read
      split at read <;> cases read
  | cons c rest inductionHypothesis =>
      rw [readNumbers] at read
      split at read
      · cases read
      · next digit isDigit =>
        have small := digitOf?_lt isDigit
        have heavier : weight * 32 * 32 ^ rest.length = weight * 32 ^ (c :: rest).length := by
          rw [List.length_cons, Nat.pow_succ', Nat.mul_assoc]
        split at read
        · next ends =>
          obtain ⟨others, -, same⟩ := Option.map_eq_some_iff.mp read
          obtain ⟨rfl, -⟩ := List.cons.inj same
          refine ⟨_, rfl, ?_⟩
          have digits : value + weight * digit < weight * 32 := by
            have most : weight * digit ≤ weight * 31 := Nat.mul_le_mul_left weight (by omega)
            omega
          have grows : weight * 32 ≤ weight * 32 * 32 ^ rest.length :=
            Nat.le_mul_of_pos_right _ (Nat.pow_pos (by decide))
          omega
        · next continued =>
          have digits : value + weight * (digit - 32) < weight * 32 := by
            have most : weight * (digit - 32) ≤ weight * 31 :=
              Nat.mul_le_mul_left weight (by omega)
            omega
          obtain ⟨total, same, bound⟩ := inductionHypothesis digits read
          exact ⟨total, same, heavier ▸ bound⟩

/-- A text that is read as one number has at least as many digits as are written of the number. -/
theorem length_le_of_readNumbers {text : List Char} {value : Int}
    (read : readNumbers 1 0 text = some [value]) :
    (encodeVlq value).toList.length ≤ text.length := by
  obtain ⟨total, rfl, bound⟩ := exists_of_readNumbers Nat.one_pos read
  have filled : text.length ≠ 0 := by
    intro empty
    rw [List.length_eq_zero_iff.mp empty] at read
    cases read
  have least := foldSign_unfoldSign_le total
  rw [encodeVlq, String.toList_ofList, List.length_map, length_encodeDigits]
  apply Nat.succ_le_of_lt
  apply Nat.log_lt_of_lt_pow' filled
  omega

theorem readNumbers_flatMap (values : List Int) (rest : List Char) :
    readNumbers 1 0 ((values.flatMap fun value => (encodeVlq value).toList) ++ rest) =
      (readNumbers 1 0 rest).map (values ++ ·) := by
  induction values with
  | nil => simp
  | cons value others inductionHypothesis =>
      rw [List.flatMap_cons, List.append_assoc, readNumbers_encodeVlq, inductionHypothesis,
        Option.map_map]
      rfl

end Reading

/-- Whole numbers of any size are read back from their numerals, which need nothing between them.
Each numeral has as few digits as possible, one for each round of its writing. -/
theorem encodeVlq_reads_back (values : List Int) :
    readNumbers 1 0 (String.join (values.map encodeVlq)).toList = some values ∧
      ∀ value : Int, IsNumeral (encodeVlq value).toList ∧
        (∀ c ∈ (encodeVlq value).toList, c ∈ alphabet) ∧
        (encodeVlq value).toList.length = Nat.log 32 (foldSign value) + 1 ∧
        ∀ text, readNumbers 1 0 text = some [value] →
          (encodeVlq value).toList.length ≤ text.length := by
  constructor
  · have joined : (String.join (values.map encodeVlq)).toList =
        (values.flatMap fun value => (encodeVlq value).toList) ++ [] := by
      simp [List.flatMap_def, Function.comp_def]
    rw [joined, readNumbers_flatMap]
    simp [readNumbers]
  · intro value
    have digits : (encodeVlq value).toList = (encodeDigits (foldSign value)).map digitChar := by
      rw [encodeVlq, String.toList_ofList]
    refine ⟨?_, fun c => mem_alphabet_of_mem_encodeVlq, ?_,
      fun text => length_le_of_readNumbers⟩
    · rw [digits]
      exact isNumeral_encodeDigits _
    · rw [digits, List.length_map, length_encodeDigits]

/-- A longer text is read as zero, too. -/
theorem encodeVlq_reads_back_sample :
    readNumbers 1 0 "ADgB".toList = some [0, -1, 16] ∧
      readNumbers 1 0 "gA".toList = some [0] ∧
      (encodeVlq 0).toList.length ≤ "gA".toList.length := by
  have longer : readNumbers 1 0 "gA".toList = some [0] := by decide +kernel
  have joined : String.join ([0, -1, 16].map encodeVlq) = "ADgB" := by decide +kernel
  obtain ⟨read, each⟩ := encodeVlq_reads_back [0, -1, 16]
  obtain ⟨-, -, -, shortest⟩ := each 0
  rw [joined] at read
  exact ⟨read, longer, shortest _ longer⟩

end AssetBundler.SourceMap
