import AssetBundler.Assoc
import AssetBundler.Path
import AssetBundler.Text.Blank
import AssetBundler.Text.Lowercase

/-!
Documents of sections with options. An option has a value of one or more lines, or it is only
named. The section of defaults serves all others.
-/

namespace AssetBundler.Ini

/-- A value is none when the option is only named. -/
structure Document where
  defaults : Assoc (Option String) := []
  sections : Assoc (Assoc (Option String)) := []
  deriving DecidableEq, Repr

def defaultSection : String := "DEFAULT"

/-- Why a line cannot be read. -/
inductive LineFault where
  | missingHeader (line : Nat) (text : String)
  | duplicateSection (line : Nat) (name : String)
  | duplicateOption (line : Nat) (section_ option : String)
  | namelessOptions (lines : List (Nat × String))
  | continuedName
  deriving DecidableEq, Repr

/-- A line number is padded to two places. -/
def lineLabel (line : Nat) : String :=
  let digits := toString line
  "[line " ++ (if digits.length < 2 then " " else "") ++ digits ++ "]"

def LineFault.message (path : Path) : LineFault → String
  | .missingHeader line text =>
      "File contains no section headers.\nfile: " ++ path.quoted ++ ", line: " ++
        toString line ++ "\n" ++ Text.quoted text
  | .duplicateSection line name =>
      "While reading from " ++ path.quoted ++ " " ++ lineLabel line ++ ": section " ++
        Text.quoted name ++ " already exists"
  | .duplicateOption line section_ option =>
      "While reading from " ++ path.quoted ++ " " ++ lineLabel line ++ ": option " ++
        Text.quoted option ++ " in section " ++ Text.quoted section_ ++ " already exists"
  | .namelessOptions lines =>
      "Source contains parsing errors: " ++ path.quoted ++
        String.join (lines.map fun entry =>
          "\n\t" ++ lineLabel entry.1 ++ ": " ++ Text.quoted entry.2)
  | .continuedName => "'NoneType' object has no attribute 'append'"

/-- The values so far are lists of lines. The nameless lines are listed from the last one on. -/
structure Reader where
  defaults : Assoc (Option (List String)) := []
  sections : Assoc (Assoc (Option (List String))) := []
  current : Option String := none
  option : String := ""
  indent : Nat := 0
  nameless : List (Nat × String) := []

namespace Reader

/-- The options of the current section. -/
def options (reader : Reader) (name : String) : Assoc (Option (List String)) :=
  if name = defaultSection then reader.defaults
  else (Assoc.find? reader.sections name).getD []

def setOption (reader : Reader) (name option : String) (value : Option (List String)) :
    Reader :=
  let options := Assoc.insert (reader.options name) option value
  if name = defaultSection then { reader with defaults := options }
  else { reader with sections := Assoc.insert reader.sections name options }

/-- The name between the first bracket and the last one. -/
def header? (text : List Char) : Option (List Char) :=
  match text with
  | '[' :: rest =>
      match rest.reverse.dropWhile (· != ']') with
      | _ :: name => if name.isEmpty then none else some name.reverse
      | [] => none
  | _ => none

def isDelimiter (c : Char) : Bool := c == '=' || c == ':'

/-- The name before the first delimiter, and the value behind it if there is a delimiter. -/
def splitOption (text : List Char) : List Char × Option (List Char) :=
  let name := Text.trimEnd (text.takeWhile fun c => !isDelimiter c)
  match text.dropWhile fun c => !isDelimiter c with
  | [] => (name, none)
  | _ :: value => (name, some (Text.trim value))

def isComment (text : List Char) : Bool := text.head? == some '#' || text.head? == some ';'

/-- An empty line belongs to the value before it. -/
def addEmptyLine (reader : Reader) : Reader :=
  match reader.current with
  | none => reader
  | some name =>
      if reader.option = "" then reader
      else
        match Assoc.find? (reader.options name) reader.option with
        | some (some lines) => reader.setOption name reader.option (some (lines ++ [""]))
        | _ => reader

def addContinuation (reader : Reader) (name : String) (text : List Char) :
    Except LineFault Reader :=
  match Assoc.find? (reader.options name) reader.option with
  | some (some lines) =>
      .ok (reader.setOption name reader.option (some (lines ++ [String.ofList text])))
  | _ => .error .continuedName

/-- Only the section of defaults may be opened again. -/
def openSection (reader : Reader) (line : Nat) (name : String) : Except LineFault Reader :=
  if Assoc.contains reader.sections name then .error (.duplicateSection line name)
  else
    let reader := { reader with current := some name, option := "" }
    if name = defaultSection then .ok reader
    else .ok { reader with sections := Assoc.insert reader.sections name [] }

/-- A line without a name is noted, and reading goes on. -/
def addOption (reader : Reader) (line : Nat) (raw : String) (name : String)
    (text : List Char) : Except LineFault Reader :=
  let (label, value) := splitOption text
  let option := Text.lower (String.ofList label)
  if Assoc.contains (reader.options name) option then
    .error (.duplicateOption line name option)
  else
    let reader := reader.setOption name option (value.map fun value => [String.ofList value])
    .ok { reader with
      option := option
      nameless := if label.isEmpty then (line, raw) :: reader.nameless else reader.nameless }

/-- One line is read. A line that is indented deeper than the option before it continues the
value of that option. -/
def addLine (reader : Reader) (line : Nat) (raw : String) : Except LineFault Reader :=
  let text := Text.trim raw.toList
  if text.isEmpty then .ok reader.addEmptyLine
  else if isComment text then .ok reader
  else
    let indent := (raw.toList.takeWhile Text.isBlank).length
    match reader.current with
    | some name =>
        if reader.option ≠ "" ∧ reader.indent < indent then reader.addContinuation name text
        else
          let reader := { reader with indent := indent }
          match header? text with
          | some inner => reader.openSection line (String.ofList inner)
          | none => reader.addOption line raw name text
    | none =>
        match header? text with
        | some inner => { reader with indent := indent }.openSection line (String.ofList inner)
        | none => .error (.missingHeader line raw)

def addLines (reader : Reader) (line : Nat) : List String → Except LineFault Reader
  | [] => .ok reader
  | raw :: rest => do
      let reader ← reader.addLine line raw
      reader.addLines (line + 1) rest

/-- The lines of a value are joined, and blanks at the end are dropped. -/
def joinValue (lines : List String) : String :=
  String.ofList (Text.trimEnd (Text.joinLines lines).toList)

def finishOptions (options : Assoc (Option (List String))) : Assoc (Option String) :=
  options.map fun entry => (entry.1, entry.2.map joinValue)

def finish (reader : Reader) : Except LineFault Document :=
  if reader.nameless.isEmpty then
    .ok ⟨finishOptions reader.defaults,
      reader.sections.map fun entry => (entry.1, finishOptions entry.2)⟩
  else .error (.namelessOptions reader.nameless.reverse)

end Reader

/-- The lines carry their line feeds. -/
def parse (lines : List String) : Except LineFault Document := do
  let reader ← Reader.addLines {} 1 lines
  reader.finish

namespace Document

/-- The option of a section, or of the defaults. A section that is unknown has none. -/
def raw? (document : Document) (section_ option : String) : Option (Option String) :=
  let own :=
    if section_ = defaultSection then some []
    else Assoc.find? document.sections section_
  match own with
  | none => none
  | some options =>
      match Assoc.find? options option with
      | some value => some value
      | none => Assoc.find? document.defaults option

def hasSection (document : Document) (name : String) : Bool :=
  Assoc.contains document.sections name

/-- The options of a section come first, then those that only the defaults have. -/
def optionNames (document : Document) (section_ : String) : List String :=
  let own := Assoc.keys ((Assoc.find? document.sections section_).getD [])
  own ++ (Assoc.keys document.defaults).filter fun name => !own.contains name

/-- The names after a kind and a colon, in the order of the sections. -/
def namesOf (document : Document) (kind : String) : List String :=
  (Assoc.keys document.sections).filterMap fun name =>
    let mark := (kind ++ ":").toList
    if mark.isPrefixOf name.toList then some (String.ofList (name.toList.drop mark.length))
    else none

end Document

end AssetBundler.Ini
