import AssetBundler.Json.Basic

/-!
Reading of JSON text. The reader also takes the three names of the values that are no decimal. A
fault is placed by the number of characters from it to the end of the text, which a reader knows
without counting what it has passed.
-/

namespace AssetBundler.Json

inductive Fault where
  | valueExpected
  | nameExpected
  | colonExpected
  | commaExpected
  | unterminatedString
  | controlCharacter
  | invalidEscape
  | invalidUnicodeEscape
  | extraData
  | byteOrderMark
  | integerTooLong (digits : Nat)
  | nestedTooDeep (inArray : Bool)
  deriving DecidableEq, Repr

def Fault.message : Fault → String
  | .valueExpected => "Expecting value"
  | .nameExpected => "Expecting property name enclosed in double quotes"
  | .colonExpected => "Expecting ':' delimiter"
  | .commaExpected => "Expecting ',' delimiter"
  | .unterminatedString => "Unterminated string starting at"
  | .controlCharacter => "Invalid control character at"
  | .invalidEscape => "Invalid \\escape"
  | .invalidUnicodeEscape => "Invalid \\uXXXX escape"
  | .extraData => "Extra data"
  | .byteOrderMark => "Unexpected UTF-8 BOM (decode using utf-8-sig)"
  | .integerTooLong digits =>
      "Exceeds the limit (4300 digits) for integer string conversion: value has " ++
        toString digits ++ " digits; use sys.set_int_max_str_digits() to increase the limit"
  | .nestedTooDeep inArray =>
      "maximum recursion depth exceeded while decoding a JSON " ++
        (if inArray then "array" else "object") ++ " from a unicode string"

/-- A fault of the limits of the reader is not shown with a place. -/
def Fault.isLimit : Fault → Bool
  | .integerTooLong _ | .nestedTooDeep _ => true
  | _ => false

/-- A reader takes a value from the start of the text and leaves the rest, or it stops at a fault
with so many characters left. -/
structure Stop where
  fault : Fault
  remaining : Nat

def isSpace (c : Char) : Bool := c == ' ' || c == '\t' || c == '\n' || c == '\r'

def skipSpaces (text : List Char) : List Char := text.dropWhile isSpace

def hexDigit? (c : Char) : Option Nat :=
  if '0' ≤ c ∧ c ≤ '9' then some (c.toNat - 48)
  else if 'a' ≤ c ∧ c ≤ 'f' then some (c.toNat - 87)
  else if 'A' ≤ c ∧ c ≤ 'F' then some (c.toNat - 55)
  else none

/-- Four digits are read only when a further character follows them. -/
def codeUnit? (text : List Char) : Option CodePoint :=
  match text with
  | first :: second :: third :: fourth :: _ :: _ => do
      let first ← hexDigit? first
      let second ← hexDigit? second
      let third ← hexDigit? third
      let fourth ← hexDigit? fourth
      return .ofNumber (((first * 16 + second) * 16 + third) * 16 + fourth)
  | _ => none

def escapedChar? : Char → Option Char
  | '"' => some '"'
  | '\\' => some '\\'
  | '/' => some '/'
  | 'b' => some '\x08'
  | 'f' => some '\x0c'
  | 'n' => some '\n'
  | 'r' => some '\r'
  | 't' => some '\t'
  | _ => none

/-- The code point of an escape and the length of the escape after its backslash. A second escape
is tried only when it is followed by a further character. A surrogate without its partner stays as
it is. -/
def readEscape (opening : Nat) (text : List Char) : Except Stop (CodePoint × Nat) :=
  match text with
  | [] => .error ⟨.unterminatedString, opening⟩
  | 'u' :: digits =>
      match codeUnit? digits with
      | none => .error ⟨.invalidUnicodeEscape, text.length⟩
      | some unit =>
          match digits.drop 4 with
          | '\\' :: 'u' :: more =>
              if unit.isLeading && 4 < more.length then
                match codeUnit? more with
                | none => .error ⟨.invalidUnicodeEscape, more.length + 1⟩
                | some second =>
                    if second.isTrailing then .ok (.ofPair unit second, 11)
                    else .ok (unit, 5)
              else .ok (unit, 5)
          | _ => .ok (unit, 5)
  | c :: _ =>
      match escapedChar? c with
      | some image => .ok (.ofChar image, 1)
      | none => .error ⟨.invalidEscape, text.length + 1⟩

/-- The code points up to the closing quote. The opening quote stands the given number of
characters before the end. -/
def readString (opening : Nat) (text : List Char) : Except Stop (CodeText × List Char) :=
  match text with
  | [] => .error ⟨.unterminatedString, opening⟩
  | c :: rest =>
      if c = '"' then .ok ([], rest)
      else if c = '\\' then
        match readEscape opening rest with
        | .error stop => .error stop
        | .ok (image, length) =>
            match readString opening (rest.drop length) with
            | .error stop => .error stop
            | .ok (images, after) => .ok (image :: images, after)
      else if c.toNat ≤ 0x1F then .error ⟨.controlCharacter, text.length⟩
      else
        match readString opening rest with
        | .error stop => .error stop
        | .ok (images, after) => .ok (.ofChar c :: images, after)
  termination_by text.length
  decreasing_by all_goals simp only [List.length_drop, List.length_cons]; omega

def isDigit (c : Char) : Bool := '0' ≤ c && c ≤ '9'

def digitsValue (digits : List Char) : Nat :=
  digits.foldl (fun value digit => value * 10 + (digit.toNat - 48)) 0

/-- The digits after a point. A point without a digit belongs to the rest. -/
def readFraction (text : List Char) : Option (List Char) × List Char :=
  match text with
  | '.' :: digits =>
      if (digits.takeWhile isDigit).isEmpty then (none, text)
      else (some (digits.takeWhile isDigit), digits.dropWhile isDigit)
  | _ => (none, text)

def exponentValue (text : List Char) : Int :=
  match text with
  | '-' :: digits => -(digitsValue digits : Int)
  | '+' :: digits => digitsValue digits
  | digits => digitsValue digits

/-- The sign and the digits after the exponent mark. A mark without a digit belongs to the rest. -/
def readExponent (text : List Char) : Option (List Char) × List Char :=
  match text with
  | mark :: signed =>
      if mark = 'e' ∨ mark = 'E' then
        let sign := (signed.take 1).filter fun c => c == '-' || c == '+'
        let digits := signed.drop sign.length
        if (digits.takeWhile isDigit).isEmpty then (none, text)
        else (some (sign ++ digits.takeWhile isDigit), digits.dropWhile isDigit)
      else (none, text)
  | [] => (none, text)

/-- The digits before the point: a lone zero, or digits that do not start with zero. -/
def readWhole (text : List Char) : List Char :=
  match text with
  | '0' :: _ => ['0']
  | _ => text.takeWhile isDigit

/-- A number with a fraction or an exponent is real, any other is whole. -/
def readNumber (text : List Char) : Except Stop (Json CodeText × List Char) :=
  let negative := text.head? == some '-'
  let unsigned := if negative then text.drop 1 else text
  let whole := readWhole unsigned
  if whole.isEmpty then .error ⟨.valueExpected, text.length⟩
  else
    let (fraction, afterFraction) := readFraction (unsigned.drop whole.length)
    let (exponent, rest) := readExponent afterFraction
    if fraction.isNone && exponent.isNone then
      if 4300 < whole.length then .error ⟨.integerTooLong whole.length, text.length⟩
      else
        let value : Int := digitsValue whole
        .ok (.integer (if negative then -value else value), rest)
    else
      let places := fraction.getD []
      let power := exponentValue (exponent.getD []) - places.length
      .ok (.real (Binary64.ofDecimal negative (digitsValue (whole ++ places)) power), rest)

/-- The names of values, and the values. -/
def namedValues : List (String × Json CodeText) :=
  [("null", .null), ("true", .bool true), ("false", .bool false),
    ("NaN", .real .notANumber), ("Infinity", .real .infinity),
    ("-Infinity", .real .negativeInfinity)]

def readName? (text : List Char) : Option (Json CodeText × List Char) :=
  namedValues.findSome? fun named =>
    if named.1.toList.isPrefixOf text then some (named.2, text.drop named.1.length) else none

mutual

/-- Reading an item or a field takes one unit of fuel and its value another, so twice the length of
the text is enough. Arrays and objects may be nested so many levels deep. -/
def readValue (fuel depth : Nat) (text : List Char) :
    Except Stop (Json CodeText × List Char) :=
  match fuel, text with
  | 0, _ => .error ⟨.valueExpected, text.length⟩
  | _, [] => .error ⟨.valueExpected, 0⟩
  | fuel + 1, c :: rest =>
      if c = '"' then do
        let (content, after) ← readString text.length rest
        return (.string content, after)
      else if c = '[' then
        match depth, skipSpaces rest with
        | 0, _ => .error ⟨.nestedTooDeep true, text.length⟩
        | _, ']' :: after => .ok (.array [], after)
        | depth + 1, inner => do
            let (items, after) ← readItems fuel depth inner
            return (.array items, after)
      else if c = '\x7b' then
        match depth, skipSpaces rest with
        | 0, _ => .error ⟨.nestedTooDeep false, text.length⟩
        | _, '\x7d' :: after => .ok (.object [], after)
        | depth + 1, inner => do
            let (fields, after) ← readFields fuel depth inner
            return (.object (Assoc.merge [] fields), after)
      else
        match readName? text with
        | some found => .ok found
        | none => readNumber text

/-- The items up to the closing bracket. -/
def readItems (fuel depth : Nat) (text : List Char) :
    Except Stop (List (Json CodeText) × List Char) :=
  match fuel with
  | 0 => .error ⟨.valueExpected, text.length⟩
  | fuel + 1 => do
      let (item, rest) ← readValue fuel depth text
      match skipSpaces rest with
      | ']' :: after => return ([item], after)
      | ',' :: more => do
          let (items, after) ← readItems fuel depth (skipSpaces more)
          return (item :: items, after)
      | other => .error ⟨.commaExpected, other.length⟩

/-- The fields up to the closing brace. -/
def readFields (fuel depth : Nat) (text : List Char) :
    Except Stop (List (CodeText × Json CodeText) × List Char) :=
  match fuel, text with
  | fuel + 1, '"' :: quoted => do
      let (name, rest) ← readString text.length quoted
      match skipSpaces rest with
      | ':' :: value => do
          let (value, rest) ← readValue fuel depth (skipSpaces value)
          match skipSpaces rest with
          | '\x7d' :: after => return ([(name, value)], after)
          | ',' :: more => do
              let (fields, after) ← readFields fuel depth (skipSpaces more)
              return ((name, value) :: fields, after)
          | other => .error ⟨.commaExpected, other.length⟩
      | other => .error ⟨.colonExpected, other.length⟩
  | _, _ => .error ⟨.nameExpected, text.length⟩

end

/-- Arrays and objects are read up to this depth. It is what a limit of a thousand nested calls
leaves to a reader that is entered ten calls deep, so it is exact for that depth of calls only. -/
def nestingLimit : Nat := 990

/-- A fault with its place, counted from the start of the text. -/
structure ParseError where
  fault : Fault
  position : Nat
  line : Nat
  column : Nat
  deriving DecidableEq, Repr

/-- Lines and columns count from one. -/
def ParseError.at (text : List Char) (stop : Stop) : ParseError :=
  let position := text.length - stop.remaining
  let before := text.take position
  { fault := stop.fault
    position := position
    line := before.count '\n' + 1
    column := (before.reverse.takeWhile (· != '\n')).length + 1 }

def ParseError.message (error : ParseError) : String :=
  if error.fault.isLimit then error.fault.message
  else
    error.fault.message ++ ": line " ++ toString error.line ++ " column " ++
      toString error.column ++ " (char " ++ toString error.position ++ ")"

/-- One value with blanks around it. -/
def readDocument (text : List Char) : Except Stop (Json CodeText) :=
  if text.head? == some '\uFEFF' then .error ⟨.byteOrderMark, text.length⟩
  else do
    let (value, rest) ← readValue (2 * text.length + 1) nestingLimit (skipSpaces text)
    match skipSpaces rest with
    | [] => return value
    | extra => .error ⟨.extraData, extra.length⟩

/-- The value of a text, which may hold surrogates. -/
def load (text : String) : Except ParseError (Json CodeText) :=
  match readDocument text.toList with
  | .ok value => .ok value
  | .error stop => .error (.at text.toList stop)

/-- The value of a text as it is shown, without surrogates. -/
def parse (text : String) : Except ParseError Json := (load text).map (mapText CodeText.shown)

end AssetBundler.Json
