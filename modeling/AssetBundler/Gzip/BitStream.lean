import AssetBundler.Gzip.Checksum

/-!
Octets read bit by bit. The lowest bit of an octet is the first one.
-/

namespace AssetBundler.Gzip

/-- The bits of the current octet that are not read yet, and the octets behind it. -/
structure BitStream where
  pending : List Bool := []
  rest : Bytes
  deriving DecidableEq, Repr

namespace BitStream

/-- The number of bits that are left. -/
def size (stream : BitStream) : Nat := stream.pending.length + 8 * stream.rest.length

def bitsOf (byte : UInt8) : List Bool := (List.range 8).map byte.toNat.testBit

def next? (stream : BitStream) : Option (Bool × BitStream) :=
  match stream.pending with
  | bit :: more => some (bit, { stream with pending := more })
  | [] =>
      match stream.rest with
      | [] => none
      | byte :: rest =>
          match bitsOf byte with
          | [] => none
          | bit :: more => some (bit, ⟨more, rest⟩)

theorem size_next? {stream after : BitStream} {bit : Bool}
    (read : stream.next? = some (bit, after)) : after.size + 1 = stream.size := by
  obtain ⟨pending, rest⟩ := stream
  cases pending with
  | cons first more =>
      simp only [next?, Option.some.injEq, Prod.mk.injEq] at read
      rw [← read.2]
      simp only [size, List.length_cons]
      omega
  | nil =>
      cases rest with
      | nil => simp [next?] at read
      | cons byte rest =>
          have eight : (bitsOf byte).length = 8 := by simp [bitsOf]
          cases shape : bitsOf byte with
          | nil => simp [shape] at eight
          | cons first more =>
              simp only [next?, shape, Option.some.injEq, Prod.mk.injEq] at read
              rw [shape, List.length_cons] at eight
              rw [← read.2]
              simp only [size, List.length_cons, List.length_nil]
              omega

/-- So many bits as a number, whose lowest bit comes first. -/
def take? (count : Nat) (stream : BitStream) : Option (Nat × BitStream) :=
  match count with
  | 0 => some (0, stream)
  | count + 1 => do
      let (bit, stream) ← stream.next?
      let (value, stream) ← take? count stream
      return (bit.toNat + 2 * value, stream)

theorem size_take? {count value : Nat} {stream after : BitStream}
    (read : take? count stream = some (value, after)) : after.size + count = stream.size := by
  induction count generalizing stream after value with
  | zero =>
      simp only [take?, Option.some.injEq, Prod.mk.injEq] at read
      rw [← read.2, Nat.add_zero]
  | succ count inductionHypothesis =>
      simp only [take?, Option.bind_eq_bind, Option.bind_eq_some_iff, Option.pure_def,
        Option.some.injEq, Prod.mk.injEq] at read
      obtain ⟨⟨bit, behind⟩, first, ⟨number, last⟩, others, _, same⟩ := read
      have one := size_next? first
      have more := inductionHypothesis others
      rw [← same]
      dsimp only at more ⊢
      omega

/-- The octets behind the current one. -/
def aligned (stream : BitStream) : Bytes := stream.rest

end BitStream

end AssetBundler.Gzip
