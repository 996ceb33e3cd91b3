import AssetBundler.Gzip.Basic

/-!
Unpacking of compressed copies. A copy that was made of octets holds these octets.
-/

namespace AssetBundler.Gzip

/-- The mark in the first octet of a stored block tells whether the block is the last one, and the
two bits behind it that its octets are stored as they are. -/
theorem take_mark (isLast : Bool) (rest : Bytes) :
    ∃ behind, BitStream.take? 1 ⟨[], (if isLast then 1 else 0) :: rest⟩ =
        some (isLast.toNat, behind) ∧
      ∃ bits, behind.take? 2 = some (0, ⟨bits, rest⟩) := by
  cases isLast with
  | false =>
      refine ⟨⟨[false, false, false, false, false, false, false], rest⟩, rfl, ?_⟩
      exact ⟨[false, false, false, false, false], rfl⟩
  | true =>
      refine ⟨⟨[false, false, false, false, false, false, false], rest⟩, rfl, ?_⟩
      exact ⟨[false, false, false, false, false], rfl⟩

theorem number_octets_two {value : Nat} (small : value ≤ blockLimit) :
    number (octets 2 value) = value := by
  rw [number_octets, Nat.mod_eq_of_lt]
  exact Nat.lt_succ_of_le small

/-- A stored block gives the octets that were put into it. -/
theorem readStored_block {block : Bytes} (small : block.length ≤ blockLimit) (rest : Bytes)
    (output : Array UInt8) :
    readStored (octets 2 block.length ++ octets 2 (blockLimit - block.length) ++ block ++ rest)
      output = some (output ++ block.toArray, ⟨[], rest⟩) := by
  have lengths : (octets 2 block.length).length = 2 ∧
      (octets 2 (blockLimit - block.length)).length = 2 := by
    constructor <;> exact length_octets 2 _
  have first : (octets 2 block.length ++ octets 2 (blockLimit - block.length) ++ block ++
      rest).take 2 = octets 2 block.length := by
    rw [List.append_assoc, List.append_assoc, List.take_left' lengths.1]
  have second : ((octets 2 block.length ++ octets 2 (blockLimit - block.length) ++ block ++
      rest).drop 2).take 2 = octets 2 (blockLimit - block.length) := by
    rw [List.append_assoc, List.append_assoc, List.drop_left' lengths.1, List.take_left' lengths.2]
  have behind : (octets 2 block.length ++ octets 2 (blockLimit - block.length) ++ block ++
      rest).drop 4 = block ++ rest := by
    rw [List.append_assoc, List.drop_left']
    rw [List.length_append, lengths.1, lengths.2]
  have both : blockLimit - block.length + block.length = 65535 := Nat.sub_add_cancel small
  simp only [readStored, first, second, behind, number_octets_two small,
    number_octets_two (Nat.sub_le blockLimit block.length), List.take_left, List.drop_left, both]
  simp

/-- Reading a stored block leads to the octets behind it. -/
theorem readBlocks_storedBlock (isLast : Bool) {block : Bytes}
    (small : block.length ≤ blockLimit) (rest : Bytes) (output : Array UInt8) :
    readBlocks ⟨[], storedBlock isLast block ++ rest⟩ output =
      if isLast then some (output ++ block.toArray, rest)
      else readBlocks ⟨[], rest⟩ (output ++ block.toArray) := by
  obtain ⟨behind, marked, bits, kind⟩ := take_mark isLast
    (octets 2 block.length ++ octets 2 (blockLimit - block.length) ++ block ++ rest)
  rw [readBlocks, storedBlock, List.cons_append, marked]
  simp only [kind, readBlock, BitStream.aligned, readStored_block small]
  cases isLast with
  | true => rfl
  | false =>
      have smaller : (BitStream.mk [] rest).size < (BitStream.mk [] ((if false then 1 else 0) ::
          (octets 2 block.length ++ octets 2 (blockLimit - block.length) ++ block ++
            rest))).size := by
        simp only [BitStream.size, List.length_cons, List.length_append]
        omega
      simp only [Bool.toNat_false, Nat.zero_ne_one, if_false, if_pos smaller]
      rfl

theorem readBlocks_storedBlocks (bytes rest : Bytes) (output : Array UInt8) :
    readBlocks ⟨[], storedBlocks bytes ++ rest⟩ output = some (output ++ bytes.toArray, rest) := by
  fun_induction storedBlocks bytes generalizing output with
  | case1 bytes small => rw [readBlocks_storedBlock true small, if_pos rfl]
  | case2 bytes large inductionHypothesis =>
      have full : (bytes.take blockLimit).length ≤ blockLimit := List.length_take_le _ _
      have whole : (bytes.take blockLimit).toArray ++ (bytes.drop blockLimit).toArray =
          bytes.toArray := by
        rw [List.append_toArray, List.take_append_drop]
      rw [List.append_assoc, readBlocks_storedBlock false full]
      simp only [Bool.false_eq_true, if_false, inductionHypothesis]
      rw [Array.append_assoc, whole]

theorem inflate_storedBlocks (bytes rest : Bytes) :
    inflate (storedBlocks bytes ++ rest) = some (bytes, rest) := by
  simp [inflate, readBlocks_storedBlocks]

theorem readMember_compress (time : Nat) (bytes : Bytes) :
    readMember (compress time bytes) = some (bytes, []) := by
  have blocks : dropHeader? (compress time bytes) = some (storedBlocks bytes ++ trailer bytes) :=
    rfl
  have eight : (trailer bytes).length = 8 := by simp [trailer, length_octets]
  simp [readMember, blocks, inflate_storedBlocks, List.take_of_length_le, List.drop_of_length_le,
    eight]

/-- A compressed copy holds the octets that it was made of, whenever it is made. -/
theorem decompress_compress (time : Nat) (bytes : Bytes) :
    decompress (compress time bytes) = some bytes := by
  have signed : signature.isPrefixOf (compress time bytes) = true := rfl
  have filled : compress time bytes ≠ [] := List.cons_ne_nil _ _
  rw [decompress, if_pos signed, readMembers, if_neg filled, readMember_compress]
  have shorter : 0 < (compress time bytes).length := List.length_pos_iff.mpr filled
  simp [shorter, readMembers]

end AssetBundler.Gzip
