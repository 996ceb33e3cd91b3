import AssetBundler.Text.Utf8

/-!
The cyclic checksum of octets, and numbers written as octets with the lowest one first.
-/

namespace AssetBundler.Gzip

/-- The remainder of the checksum polynomial after so many shifts. -/
def shiftBits (steps : Nat) (value : UInt32) : UInt32 :=
  match steps with
  | 0 => value
  | steps + 1 =>
      shiftBits steps (if value &&& 1 = 1 then (value >>> 1) ^^^ 0xEDB88320 else value >>> 1)

def updateChecksum (checksum : UInt32) (byte : UInt8) : UInt32 :=
  shiftBits 8 ((checksum ^^^ byte.toUInt32) &&& 0xFF) ^^^ (checksum >>> 8)

def checksum (bytes : Bytes) : UInt32 := (bytes.foldl updateChecksum 0xFFFFFFFF) ^^^ 0xFFFFFFFF

/-- So many octets of a number, the lowest one first. -/
def octets (count number : Nat) : Bytes :=
  match count with
  | 0 => []
  | count + 1 => (number % 256).toUInt8 :: octets count (number / 256)

def number (bytes : Bytes) : Nat :=
  bytes.foldr (fun byte value => byte.toNat + 256 * value) 0

theorem length_octets (count value : Nat) : (octets count value).length = count := by
  induction count generalizing value with
  | zero => rfl
  | succ count inductionHypothesis => simp [octets, inductionHypothesis]

theorem number_octets (count value : Nat) :
    number (octets count value) = value % Nat.pow 256 count := by
  induction count generalizing value with
  | zero => simp [octets, number, Nat.mod_one]
  | succ count inductionHypothesis =>
      have tail := inductionHypothesis (value / 256)
      simp only [number] at tail
      simp only [octets, number, List.foldr_cons, tail]
      have octet : (value % 256).toUInt8.toNat = value % 256 := by
        simp [Nat.toUInt8, UInt8.toNat_ofNat']
      have power : Nat.pow 256 (count + 1) = 256 * Nat.pow 256 count := Nat.pow_succ'
      rw [octet, power, Nat.mod_mul]

end AssetBundler.Gzip
