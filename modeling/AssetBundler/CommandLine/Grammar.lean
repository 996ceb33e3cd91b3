import AssetBundler.Text.DecimalDigit
import AssetBundler.Text.Quoted

/-!
Command lines. Every argument is first read for itself as an option, an operand or the separator
behind which all arguments are operands. Only then are the options taken in their order, and an
unknown one is kept for the end.
-/

namespace AssetBundler.CommandLine

inductive Switch where
  | help
  | version
  | bundle
  | clean
  | verbose
  | progress
  deriving DecidableEq, Repr

structure OptionSpec where
  names : List String
  switch : Switch
  takesValue : Bool := false
  deriving DecidableEq, Repr

/-- A command with its options and its texts. -/
structure Grammar where
  program : String
  usage : String
  help : String
  options : List OptionSpec
  deriving DecidableEq, Repr

/-- How an argument reads as an option. An unknown option has no description. What is attached may
be a value or further letters. -/
structure Reading where
  spec : Option OptionSpec
  name : String
  attached : Option String := none
  deriving DecidableEq, Repr

inductive Mark where
  | separator
  | operand
  | option (reading : Reading)
  deriving DecidableEq, Repr

namespace Grammar

/-- The names of all options in their order. -/
def namedOptions (grammar : Grammar) : List (String × OptionSpec) :=
  grammar.options.flatMap fun spec => spec.names.map fun name => (name, spec)

def find? (grammar : Grammar) (name : String) : Option OptionSpec :=
  grammar.namedOptions.lookup name

end Grammar

/-- The text before the first equals sign and the text behind it. -/
def partitionEquals (text : String) : String × Option String :=
  let name := text.toList.takeWhile (· != '=')
  match text.toList.dropWhile (· != '=') with
  | [] => (text, none)
  | _ :: value => (String.ofList name, some (String.ofList value))

/-- The options that an argument may abbreviate. After one hyphen the first letter may carry a
value or further letters. -/
def interpretations (grammar : Grammar) (argument : String) : List Reading :=
  if argument.startsWith "--" then
    let (start, value) := partitionEquals argument
    grammar.namedOptions.filterMap fun named =>
      if named.1.startsWith start then some ⟨some named.2, named.1, value⟩
      else none
  else
    let letter := String.ofList (argument.toList.take 2)
    let attached := String.ofList (argument.toList.drop 2)
    grammar.namedOptions.filterMap fun named =>
      if named.1 = letter then some ⟨some named.2, named.1, some attached⟩
      else if named.1.startsWith argument then some ⟨some named.2, named.1, none⟩
      else none

/-- A hyphen before digits, which may hold one point that is not the last character. A line feed
may stand at the end. -/
def isNegativeNumber (argument : String) : Bool :=
  let text := argument.toList
  let line := if text.getLast? = some '\n' then text.dropLast else text
  match line with
  | '-' :: digits =>
      match digits.dropWhile Text.isDecimalDigit with
      | [] => !digits.isEmpty
      | '.' :: fraction => !fraction.isEmpty && fraction.all Text.isDecimalDigit
      | _ => false
  | _ => false

def ambiguity (argument : String) (readings : List Reading) : String :=
  "ambiguous option: " ++ argument ++ " could match " ++
    ", ".intercalate (readings.map Reading.name)

/-- An argument that reads in more than one way is an error. -/
def markOf (grammar : Grammar) (argument : String) : Except String Mark :=
  if !argument.startsWith "-" then .ok .operand
  else
    match grammar.find? argument with
    | some spec => .ok (.option ⟨some spec, argument, none⟩)
    | none =>
        if argument = "-" then .ok .operand
        else
          let (name, value) := partitionEquals argument
          match value, grammar.find? name with
          | some value, some spec => .ok (.option ⟨some spec, name, some value⟩)
          | _, _ =>
              match interpretations grammar argument with
              | [reading] => .ok (.option reading)
              | [] =>
                  if isNegativeNumber argument || argument.toList.contains ' ' then .ok .operand
                  else .ok (.option ⟨none, argument, none⟩)
              | readings => .error (ambiguity argument readings)

/-- Behind the separator every argument is an operand. -/
def markAll (grammar : Grammar) : List String → Except String (List (String × Mark))
  | [] => .ok []
  | argument :: rest =>
      if argument = "--" then
        .ok ((argument, .separator) :: rest.map fun operand => (operand, .operand))
      else do
        let mark ← markOf grammar argument
        let marks ← markAll grammar rest
        return (argument, mark) :: marks

/-- What an argument with options gives: the options with their values, an unknown option, and
whether the next argument was taken as a value. -/
structure Taken where
  options : List (OptionSpec × Option String)
  unknown : List String := []
  usesNext : Bool := false

def OptionSpec.complain (spec : OptionSpec) (message : String) : String :=
  "argument " ++ "/".intercalate spec.names ++ ": " ++ message

def ignored (spec : OptionSpec) (attached : List Char) : String :=
  spec.complain ("ignored explicit argument " ++ Text.quoted (String.ofList attached))

/-- The separator is never a value, not even where it is attached to an option. -/
def valueOf (text : String) : Option String := if text = "--" then none else some text

/-- An option without an attached value takes the next operand if it needs one. -/
def takeAlone (spec : OptionSpec) (next : Option String) : Except String Taken :=
  if !spec.takesValue then .ok ⟨[(spec, none)], [], false⟩
  else
    match next with
    | some text => .ok ⟨[(spec, valueOf text)], [], true⟩
    | none => .error (spec.complain "expected one argument")

def isLetter (name : String) : Bool := !name.startsWith "--"

/-- Letters may follow each other behind one hyphen, up to one that takes the rest as its value. -/
def takeAttached (grammar : Grammar) (spec : OptionSpec) (name : String) (next : Option String)
    (attached : List Char) : Except String Taken :=
  if spec.takesValue then .ok ⟨[(spec, valueOf (String.ofList attached))], [], false⟩
  else if !isLetter name then .error (ignored spec attached)
  else
    match attached with
    | [] => .error (ignored spec attached)
    | letter :: more =>
        let name := String.ofList ['-', letter]
        match grammar.find? name with
        | none => .error (ignored spec attached)
        | some other => do
            let taken ←
              match more with
              | [] => takeAlone other next
              | letters => takeAttached grammar other name next letters
            return { taken with options := (spec, none) :: taken.options }
  termination_by attached.length

/-- An unknown option is kept as it is. -/
def takeOption (grammar : Grammar) (argument : String) (reading : Reading)
    (next : Option String) : Except String Taken :=
  match reading.spec, reading.attached with
  | none, _ => .ok ⟨[], [argument], false⟩
  | some spec, none => takeAlone spec next
  | some spec, some attached => takeAttached grammar spec reading.name next attached.toList

end AssetBundler.CommandLine
