import AssetBundler.Gzip.BitStream

/-!
Unpacking of compressed blocks. A block holds its octets as they are, or symbols of two prefix
codes: octets and lengths of repetitions, and the distances back to what is repeated.
-/

namespace AssetBundler.Gzip

/-- A prefix code whose code words of one length are consecutive numbers. The numbers of code
words are given from length one on, and the symbols in the order of their code words. -/
structure PrefixCode where
  counts : List Nat
  symbols : Array Nat
  deriving Repr

namespace PrefixCode

def longest : Nat := 15

/-- The code with these lengths of the code words, symbol by symbol. A symbol of length zero has
no code word. -/
def ofLengths (lengths : List Nat) : PrefixCode :=
  let sized := (List.range longest).map (· + 1)
  let numbered := lengths.zipIdx
  { counts := sized.map lengths.count
    symbols := (sized.flatMap fun length =>
      (numbered.filter fun entry => entry.1 == length).map Prod.snd).toArray }

/-- The symbol of the next code word. Before its last bit the word lies so far behind the first
word of its length, and the symbols of shorter words have been passed. -/
def readFrom (symbols : Array Nat) (offset passed : Nat) (counts : List Nat)
    (stream : BitStream) : Option (Nat × BitStream) :=
  match counts with
  | [] => none
  | count :: counts => do
      let (bit, stream) ← stream.next?
      let offset := 2 * offset + bit.toNat
      if offset < count then return (← symbols[passed + offset]?, stream)
      else readFrom symbols (offset - count) (passed + count) counts stream

theorem size_readFrom {symbols : Array Nat} {offset passed symbol : Nat} {counts : List Nat}
    {stream after : BitStream}
    (read : readFrom symbols offset passed counts stream = some (symbol, after)) :
    after.size < stream.size := by
  induction counts generalizing offset passed stream with
  | nil => simp [readFrom] at read
  | cons count counts inductionHypothesis =>
      simp only [readFrom, Option.bind_eq_bind, Option.bind_eq_some_iff] at read
      obtain ⟨⟨bit, behind⟩, first, read⟩ := read
      have one := BitStream.size_next? first
      split at read
      · simp only [Option.bind_eq_some_iff, Option.pure_def, Option.some.injEq,
          Prod.mk.injEq] at read
        obtain ⟨_, _, _, same⟩ := read
        rw [← same]
        omega
      · have more := inductionHypothesis read
        dsimp only at more
        omega

def read? (code : PrefixCode) (stream : BitStream) : Option (Nat × BitStream) :=
  readFrom code.symbols 0 0 code.counts stream

theorem size_read? {code : PrefixCode} {symbol : Nat} {stream after : BitStream}
    (read : code.read? stream = some (symbol, after)) : after.size < stream.size :=
  size_readFrom read

end PrefixCode

/-- The least value of a symbol, and the number of bits that are added to it. -/
abbrev Extended := Nat × Nat

/-- Values that follow each other without a gap. -/
def extendedFrom (start : Nat) : List Nat → List Extended
  | [] => []
  | bits :: rest => (start, bits) :: extendedFrom (start + Nat.pow 2 bits) rest

/-- The lengths of repetitions. The greatest one has a symbol of its own. -/
def lengthTable : Array Extended :=
  (extendedFrom 3 [0, 0, 0, 0, 0, 0, 0, 0, 1, 1, 1, 1, 2, 2, 2, 2, 3, 3, 3, 3, 4, 4, 4, 4,
    5, 5, 5, 5] ++ [(258, 0)]).toArray

def distanceTable : Array Extended :=
  (extendedFrom 1 [0, 0, 0, 0, 1, 1, 2, 2, 3, 3, 4, 4, 5, 5, 6, 6, 7, 7, 8, 8, 9, 9, 10, 10, 11, 11,
    12, 12, 13, 13]).toArray

example : lengthTable.size = 29 ∧ distanceTable[29]? = some (24577, 13) := by decide +kernel

def readExtended (table : Array Extended) (symbol : Nat) (stream : BitStream) :
    Option (Nat × BitStream) := do
  let (least, bits) ← table[symbol]?
  let (value, stream) ← stream.take? bits
  return (least + value, stream)

theorem size_readExtended {table : Array Extended} {symbol value : Nat} {stream after : BitStream}
    (read : readExtended table symbol stream = some (value, after)) :
    after.size ≤ stream.size := by
  simp only [readExtended, Option.bind_eq_bind, Option.bind_eq_some_iff, Option.pure_def,
    Option.some.injEq, Prod.mk.injEq] at read
  obtain ⟨_, _, ⟨_, behind⟩, bits, _, same⟩ := read
  have taken := BitStream.size_take? bits
  rw [← same]
  dsimp only
  omega

/-- The octets from so far back are repeated, also those that the repetition adds. -/
def copyBack (distance length : Nat) (output : Array UInt8) : Option (Array UInt8) :=
  match length with
  | 0 => some output
  | length + 1 =>
      if distance = 0 ∨ output.size < distance then none
      else do
        let byte ← output[output.size - distance]?
        copyBack distance length (output.push byte)

/-- The symbol that ends a block. -/
def endSymbol : Nat := 256

/-- What a block says: an octet, a repetition, or that the block ends. -/
inductive Token where
  | literal (byte : UInt8)
  | copy (distance length : Nat)
  | finish
  deriving DecidableEq, Repr

def readToken (literals distances : PrefixCode) (stream : BitStream) :
    Option (Token × BitStream) := do
  let (symbol, stream) ← literals.read? stream
  if symbol < endSymbol then return (.literal symbol.toUInt8, stream)
  else if symbol = endSymbol then return (.finish, stream)
  else
    let (length, stream) ← readExtended lengthTable (symbol - endSymbol - 1) stream
    let (symbol, stream) ← distances.read? stream
    let (distance, stream) ← readExtended distanceTable symbol stream
    return (.copy distance length, stream)

/-- A token takes at least one bit. -/
theorem size_readToken {literals distances : PrefixCode} {stream after : BitStream}
    {token : Token} (read : readToken literals distances stream = some (token, after)) :
    after.size < stream.size := by
  simp only [readToken, Option.bind_eq_bind, Option.bind_eq_some_iff] at read
  obtain ⟨⟨symbol, behind⟩, first, read⟩ := read
  have one := PrefixCode.size_read? first
  split at read
  · simp only [Option.pure_def, Option.some.injEq, Prod.mk.injEq] at read
    rw [← read.2]
    exact one
  · split at read
    · simp only [Option.pure_def, Option.some.injEq, Prod.mk.injEq] at read
      rw [← read.2]
      exact one
    · simp only [Option.bind_eq_some_iff, Option.pure_def, Option.some.injEq,
        Prod.mk.injEq] at read
      obtain ⟨⟨_, afterLength⟩, length, ⟨_, afterCode⟩, code, ⟨_, last⟩, distance, _, same⟩ := read
      have lengthSize := size_readExtended length
      have codeSize := PrefixCode.size_read? code
      have distanceSize := size_readExtended distance
      rw [← same]
      dsimp only at lengthSize codeSize distanceSize one ⊢
      omega

/-- The output with what the tokens up to the end of the block add to it. -/
def readTokens (literals distances : PrefixCode) (stream : BitStream) (output : Array UInt8) :
    Option (Array UInt8 × BitStream) :=
  match _read : readToken literals distances stream with
  | none => none
  | some (.finish, after) => some (output, after)
  | some (.literal byte, after) => readTokens literals distances after (output.push byte)
  | some (.copy distance length, after) =>
      match copyBack distance length output with
      | none => none
      | some output => readTokens literals distances after output
  termination_by stream.size
  decreasing_by all_goals exact size_readToken _read

/-- The code words of blocks without a description of their codes. -/
def standardLiterals : PrefixCode :=
  .ofLengths (List.replicate 144 8 ++ List.replicate 112 9 ++ List.replicate 24 7 ++
    List.replicate 8 8)

def standardDistances : PrefixCode := .ofLengths (List.replicate 30 5)

/-- The order in which the lengths of the code of lengths are given. -/
def describedOrder : List Nat := [16, 17, 18, 0, 8, 7, 9, 6, 10, 5, 11, 4, 12, 3, 13, 2, 14, 1, 15]

def readNumbers (count bits : Nat) (stream : BitStream) : Option (List Nat × BitStream) :=
  match count with
  | 0 => some ([], stream)
  | count + 1 => do
      let (value, stream) ← stream.take? bits
      let (values, stream) ← readNumbers count bits stream
      return (value :: values, stream)

/-- The lengths that a symbol of the code of lengths stands for: itself, the last length again, or
zeros. -/
def expandLength (symbol : Nat) (last : Option Nat) (stream : BitStream) :
    Option (List Nat × BitStream) :=
  if symbol < 16 then some ([symbol], stream)
  else if symbol = 16 then do
    let last ← last
    let (times, stream) ← stream.take? 2
    return (List.replicate (times + 3) last, stream)
  else if symbol = 17 then do
    let (times, stream) ← stream.take? 3
    return (List.replicate (times + 3) 0, stream)
  else do
    let (times, stream) ← stream.take? 7
    return (List.replicate (times + 11) 0, stream)

theorem size_expandLength {symbol : Nat} {last : Option Nat} {stream after : BitStream}
    {lengths : List Nat} (read : expandLength symbol last stream = some (lengths, after)) :
    after.size ≤ stream.size := by
  simp only [expandLength] at read
  split at read
  · simp only [Option.some.injEq, Prod.mk.injEq] at read
    exact Nat.le_of_eq (congrArg BitStream.size read.2.symm)
  · split at read
    · simp only [Option.bind_eq_bind, Option.bind_eq_some_iff, Option.pure_def,
        Option.some.injEq, Prod.mk.injEq] at read
      obtain ⟨_, _, ⟨_, behind⟩, bits, _, same⟩ := read
      have taken := BitStream.size_take? bits
      rw [← same]
      dsimp only
      omega
    · split at read <;>
      · simp only [Option.bind_eq_bind, Option.bind_eq_some_iff, Option.pure_def,
          Option.some.injEq, Prod.mk.injEq] at read
        obtain ⟨⟨_, behind⟩, bits, _, same⟩ := read
        have taken := BitStream.size_take? bits
        rw [← same]
        dsimp only
        omega

/-- So many lengths, written in the code of lengths. -/
def readLengths (code : PrefixCode) (count : Nat) (lengths : Array Nat) (stream : BitStream) :
    Option (List Nat × BitStream) :=
  if count ≤ lengths.size then
    if lengths.size = count then some (lengths.toList, stream) else none
  else
    match _first : code.read? stream with
    | none => none
    | some (symbol, behind) =>
        match _expanded : expandLength symbol lengths.back? behind with
        | none => none
        | some (more, after) => readLengths code count (lengths ++ more.toArray) after
  termination_by stream.size
  decreasing_by
    exact Nat.lt_of_le_of_lt (size_expandLength _expanded) (PrefixCode.size_read? _first)

/-- The codes that a block describes at its start. -/
def readCodes (stream : BitStream) : Option ((PrefixCode × PrefixCode) × BitStream) := do
  let (literals, stream) ← stream.take? 5
  let (distances, stream) ← stream.take? 5
  let (described, stream) ← stream.take? 4
  let (given, stream) ← readNumbers (described + 4) 3 stream
  let named := describedOrder.zip given
  let code := PrefixCode.ofLengths ((List.range 19).map fun symbol => (named.lookup symbol).getD 0)
  let (lengths, stream) ← readLengths code (literals + 257 + (distances + 1)) #[] stream
  return ((.ofLengths (lengths.take (literals + 257)), .ofLengths (lengths.drop (literals + 257))),
    stream)

/-- A block that holds its octets as they are starts with their number, which is also given with
all bits turned. -/
def readStored (bytes : Bytes) (output : Array UInt8) : Option (Array UInt8 × BitStream) :=
  let length := number (bytes.take 2)
  let block := (bytes.drop 4).take length
  if number ((bytes.drop 2).take 2) + length ≠ 65535 ∨ block.length < length then none
  else some (output ++ block.toArray, ⟨[], (bytes.drop 4).drop length⟩)

def readBlock (kind : Nat) (stream : BitStream) (output : Array UInt8) :
    Option (Array UInt8 × BitStream) :=
  match kind with
  | 0 => readStored stream.aligned output
  | 1 => readTokens standardLiterals standardDistances stream output
  | 2 => do
      let ((literals, distances), stream) ← readCodes stream
      readTokens literals distances stream output
  | _ => none

/-- The blocks up to the one that is marked as the last, and the octets behind it. -/
def readBlocks (stream : BitStream) (output : Array UInt8) : Option (Array UInt8 × Bytes) :=
  match stream.take? 1 with
  | none => none
  | some (last, behind) =>
      match behind.take? 2 with
      | none => none
      | some (kind, behind) =>
          match readBlock kind behind output with
          | none => none
          | some (output, after) =>
              if last = 1 then some (output, after.aligned)
              else if after.size < stream.size then readBlocks after output
              else none
  termination_by stream.size

/-- The octets of compressed blocks, and those behind the last block. -/
def inflate (bytes : Bytes) : Option (Bytes × Bytes) :=
  (readBlocks ⟨[], bytes⟩ #[]).map fun unpacked => (unpacked.1.toList, unpacked.2)

end AssetBundler.Gzip
