import AssetBundler.Ini.Document
import AssetBundler.Text.Lines

/-!
Reading of a document from octets. The octets come in blocks, and the lines of one block are read
before the next block is decoded. So a fault in a line wins over malformed octets in a later
block, and the place of malformed octets counts from the start of what is decoded together.
-/

namespace AssetBundler.Ini

def blockSize : Nat := 8192

/-- The text of the blocks before malformed octets, and the fault if there is one. -/
structure Decoded where
  text : List Char
  fault : Option Utf8.Fault

/-- A character that may still be completed is held for the next block. So is the start of a
surrogate. -/
def isHeld (scan : Utf8.Scan) : Bool :=
  match scan.cause with
  | .complete => true
  | .cut => true
  | .malformed _ _ =>
      match scan.rest with
      | [first, second] => first == 0xED && 0xA0 ≤ second.toNat && second.toNat ≤ 0xBF
      | _ => false

def faultOf (bytes : Bytes) : Option Utf8.Fault :=
  match Utf8.decode bytes with
  | .ok _ => none
  | .error fault => some fault

/-- Held octets come before those of the next block. Behind the last block nothing is held. -/
def decodeBlocks (held bytes : Bytes) : Decoded :=
  if bytes = [] then ⟨[], faultOf held⟩
  else
    let block := held ++ bytes.take blockSize
    let scan := Utf8.scan block
    if isHeld scan then
      let later := decodeBlocks scan.rest (bytes.drop blockSize)
      ⟨scan.text ++ later.text, later.fault⟩
    else ⟨[], faultOf block⟩
  termination_by bytes.length
  decreasing_by
    have := List.length_pos_iff.mpr (by assumption)
    simp only [List.length_drop, blockSize]
    omega

/-- The lines with their line feeds. The last one may have none. -/
def linesWithEnds : List Char → List (List Char)
  | [] => []
  | c :: rest =>
      if c = '\n' then [c] :: linesWithEnds rest
      else
        match linesWithEnds rest with
        | [] => [[c]]
        | line :: lines => (c :: line) :: lines

/-- Lines that are read whole. A carriage return at the end may still belong to a line feed. -/
def wholeLines (text : List Char) : List (List Char) :=
  let settled := if text.getLast? = some '\r' then text.dropLast else text
  (linesWithEnds (Text.unifyNewlines settled)).filter fun line =>
    line.getLast? == some '\n'

/-- Why octets are no document. -/
inductive ReadFault where
  | line (fault : LineFault)
  | undecodable (fault : Utf8.Fault)
  deriving DecidableEq, Repr

def ofBytes (bytes : Bytes) : Except ReadFault Document :=
  let decoded := decodeBlocks [] bytes
  match decoded.fault with
  | none =>
      let lines := linesWithEnds (Text.unifyNewlines decoded.text)
      match parse (lines.map String.ofList) with
      | .ok document => .ok document
      | .error fault => .error (.line fault)
  | some undecodable =>
      match Reader.addLines {} 1 ((wholeLines decoded.text).map String.ofList) with
      | .ok _ => .error (.undecodable undecodable)
      | .error fault => .error (.line fault)

end AssetBundler.Ini
