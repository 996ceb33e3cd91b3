import AssetBundler.Text.Quoted

/-!
Text as octets. Reading takes the longest part that is well formed and says why it stopped.
-/

namespace AssetBundler

abbrev Bytes := List UInt8

namespace Utf8

def encode (text : String) : Bytes := text.toUTF8.toList

/-- The number of octets of a text. -/
def size (text : String) : Nat := text.utf8ByteSize

inductive Reason where
  | invalidStart
  | invalidContinuation
  | unexpectedEnd
  deriving DecidableEq, Repr

def Reason.message : Reason → String
  | .invalidStart => "invalid start byte"
  | .invalidContinuation => "invalid continuation byte"
  | .unexpectedEnd => "unexpected end of data"

/-- The octets of a fault, and the place of the first of them. -/
structure Fault where
  position : Nat
  bytes : Bytes
  reason : Reason
  deriving DecidableEq, Repr

def Fault.message (fault : Fault) : String :=
  let place :=
    match fault.bytes with
    | [byte] =>
        "byte 0x" ++ String.ofList (Text.hexDigits 2 byte.toNat) ++ " in position " ++
          toString fault.position
    | bytes =>
        "bytes in position " ++ toString fault.position ++ "-" ++
          toString (fault.position + bytes.length - 1)
  "'utf-8' codec can't decode " ++ place ++ ": " ++ fault.reason.message

/-- The count of octets that a first octet announces, and the range of the second one. Surrogates,
forms that are longer than needed and codes that are too large are ruled out by that range. -/
def announce (first : Nat) : Option (Nat × Nat × Nat) :=
  if first < 0xC2 then none
  else if first < 0xE0 then some (2, 0x80, 0xBF)
  else if first = 0xE0 then some (3, 0xA0, 0xBF)
  else if first = 0xED then some (3, 0x80, 0x9F)
  else if first < 0xF0 then some (3, 0x80, 0xBF)
  else if first = 0xF0 then some (4, 0x90, 0xBF)
  else if first < 0xF4 then some (4, 0x80, 0xBF)
  else if first = 0xF4 then some (4, 0x80, 0x8F)
  else none

def isContinuation (byte : UInt8) : Bool := 0x80 ≤ byte.toNat && byte.toNat ≤ 0xBF

/-- What stands at the start of the octets. -/
inductive Head where
  | char (c : Char) (length : Nat)
  | cut
  | malformed (length : Nat) (reason : Reason)

/-- The code of a sequence whose first octet carries the given number of marker values. -/
def codeOf (length : Nat) (first : Nat) (rest : Bytes) : Nat :=
  rest.foldl (fun code byte => code * 64 + byte.toNat % 64)
    (if length = 2 then first % 32 else if length = 3 then first % 16 else first % 8)

def head (first : UInt8) (rest : Bytes) : Head :=
  if first.toNat < 0x80 then .char (Char.ofNat first.toNat) 1
  else
    match announce first.toNat with
    | none => .malformed 1 .invalidStart
    | some (length, low, high) =>
        match rest with
        | [] => .cut
        | second :: more =>
            if second.toNat < low ∨ high < second.toNat then .malformed 1 .invalidContinuation
            else
              let further := (more.take (length - 2)).takeWhile isContinuation
              if further.length = length - 2 then
                .char (Char.ofNat (codeOf length first.toNat (second :: further))) length
              else if more.length = further.length then .cut
              else .malformed (further.length + 2) .invalidContinuation

/-- Why a reader stopped before the octets that it left. -/
inductive Cause where
  | complete
  | cut
  | malformed (length : Nat) (reason : Reason)

structure Scan where
  text : List Char
  rest : Bytes
  cause : Cause

/-- The characters are collected in reverse. -/
def scanFrom (text : List Char) (bytes : Bytes) : Scan :=
  match bytes with
  | [] => ⟨text.reverse, [], .complete⟩
  | first :: rest =>
      match head first rest with
      | .char c length => scanFrom (c :: text) (rest.drop (length - 1))
      | .cut => ⟨text.reverse, bytes, .cut⟩
      | .malformed length reason => ⟨text.reverse, bytes, .malformed length reason⟩
  termination_by bytes.length
  decreasing_by simp only [List.length_drop, List.length_cons]; omega

def scan (bytes : Bytes) : Scan := scanFrom [] bytes

/-- The text of octets that are well formed to the end. -/
def decode (bytes : Bytes) : Except Fault String :=
  let result := scan bytes
  let position := bytes.length - result.rest.length
  match result.cause with
  | .complete => .ok (String.ofList result.text)
  | .cut => .error ⟨position, result.rest, .unexpectedEnd⟩
  | .malformed length reason => .error ⟨position, result.rest.take length, reason⟩

end Utf8

end AssetBundler
