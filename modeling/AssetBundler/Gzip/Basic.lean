import AssetBundler.Gzip.Inflate

/-!
Compressed copies in the gzip format. They are written with blocks that hold their octets as they
are, and read whatever their blocks are.
-/

namespace AssetBundler.Gzip

/-- The mark that the format starts with. -/
def signature : Bytes := [0x1F, 0x8B]

/-- The mark, the method, no flags, the time in seconds, the highest effort, and an unknown
system. -/
def header (time : Nat) : Bytes := signature ++ [8, 0] ++ octets 4 time ++ [2, 0xFF]

def blockLimit : Nat := 65535

/-- A block starts with a mark for the last one and with its length, which is also given with all
bits turned. -/
def storedBlock (isLast : Bool) (block : Bytes) : Bytes :=
  (if isLast then 1 else 0) ::
    (octets 2 block.length ++ octets 2 (blockLimit - block.length) ++ block)

def storedBlocks (bytes : Bytes) : Bytes :=
  if bytes.length ≤ blockLimit then storedBlock true bytes
  else storedBlock false (bytes.take blockLimit) ++ storedBlocks (bytes.drop blockLimit)
  termination_by bytes.length
  decreasing_by
    simp only [List.length_drop, blockLimit] at *
    omega

/-- The octets end with their checksum and their length. -/
def trailer (bytes : Bytes) : Bytes :=
  octets 4 (checksum bytes).toNat ++ octets 4 bytes.length

/-- Copies that are made at different times differ by their headers. -/
def compress (time : Nat) (bytes : Bytes) : Bytes :=
  header time ++ storedBlocks bytes ++ trailer bytes

/-- The octets behind the first null octet. -/
def dropText (bytes : Bytes) : Bytes := (bytes.dropWhile (· != 0)).drop 1

/-- The flags tell which parts stand between the header and the blocks: a field with its length, a
name, a comment, and a checksum of the header. -/
def dropOptional (flags : Nat) (bytes : Bytes) : Bytes :=
  let bytes := if flags.testBit 2 then bytes.drop (2 + number (bytes.take 2)) else bytes
  let bytes := if flags.testBit 3 then dropText bytes else bytes
  let bytes := if flags.testBit 4 then dropText bytes else bytes
  if flags.testBit 1 then bytes.drop 2 else bytes

/-- The blocks behind the header. -/
def dropHeader? (bytes : Bytes) : Option Bytes :=
  match bytes with
  | first :: second :: method :: flags :: rest =>
      if [first, second] = signature ∧ method = 8 ∧ 6 ≤ rest.length then
        some (dropOptional flags.toNat (rest.drop 6))
      else none
  | _ => none

/-- One compressed part and the octets behind it. Its checksum and its length have to agree with
its contents. -/
def readMember (bytes : Bytes) : Option (Bytes × Bytes) := do
  let blocks ← dropHeader? bytes
  let (contents, behind) ← inflate blocks
  if behind.take 8 = trailer contents then return (contents, behind.drop 8) else none

/-- The contents of all parts. Null octets may stand behind each of them. -/
def readMembers (bytes : Bytes) : Option Bytes :=
  if bytes = [] then some []
  else
    match readMember bytes with
    | none => none
    | some (contents, behind) =>
        if (behind.dropWhile (· == 0)).length < bytes.length then
          (readMembers (behind.dropWhile (· == 0))).map (contents ++ ·)
        else none
  termination_by bytes.length

/-- The contents of a compressed copy. -/
def decompress (bytes : Bytes) : Option Bytes :=
  if signature.isPrefixOf bytes then readMembers bytes else none

end AssetBundler.Gzip
