import AssetBundler.CommandLine.Grammar

/-!
The commands of the program, and what a command line asks for.
-/

namespace AssetBundler.CommandLine

def programVersion : String := "0.1.0"

def helpOption : OptionSpec := ⟨["-h", "--help"], .help, false⟩

def mainUsage : String := "usage: webbuild [-h] [--version] \x7bbuild,list\x7d ...\n"

def mainGrammar : Grammar where
  program := "webbuild"
  usage := mainUsage
  help := mainUsage ++ "\nwebbuild - declarative script and stylesheet bundler\n\n" ++
    "positional arguments:\n" ++
    "  \x7bbuild,list\x7d  Command to run\n" ++
    "    build       Build bundles defined in webbuild.ini\n" ++
    "    list        List bundles defined in webbuild.ini\n\n" ++
    "options:\n" ++
    "  -h, --help    show this help message and exit\n" ++
    "  --version     show program's version number and exit\n"
  options := [helpOption, ⟨["--version"], .version, false⟩]

def buildUsage : String :=
  "usage: webbuild build [-h] [-b BUNDLES] [-c] [-v] [--progress] [project_dir]\n"

def buildGrammar : Grammar where
  program := "webbuild build"
  usage := buildUsage
  help := buildUsage ++ "\npositional arguments:\n" ++
    "  project_dir           Project directory (default: current directory)\n\n" ++
    "options:\n" ++
    "  -h, --help            show this help message and exit\n" ++
    "  -b BUNDLES, --bundle BUNDLES\n" ++
    "                        Bundle to build, may be repeated (default:\n" ++
    "                        default_bundles from webbuild.ini)\n" ++
    "  -c, --clean           Remove previous bundle artifacts before building\n" ++
    "  -v, --verbose         Show verbose build output\n" ++
    "  --progress            Show a progress bar while compiling sources\n"
  options := [helpOption, ⟨["-b", "--bundle"], .bundle, true⟩, ⟨["-c", "--clean"], .clean, false⟩,
    ⟨["-v", "--verbose"], .verbose, false⟩, ⟨["--progress"], .progress, false⟩]

def listUsage : String := "usage: webbuild list [-h] [project_dir]\n"

def listGrammar : Grammar where
  program := "webbuild list"
  usage := listUsage
  help := listUsage ++ "\npositional arguments:\n" ++
    "  project_dir  Project directory (default: current directory)\n\n" ++
    "options:\n" ++
    "  -h, --help   show this help message and exit\n"
  options := [helpOption]

/-- What the options and the operand of a command say. A bundle has no name when the separator
stands in its place. -/
structure Arguments where
  directory : Option String := none
  bundles : List (Option String) := []
  clean : Bool := false
  verbose : Bool := false
  progress : Bool := false
  deriving DecidableEq, Repr

/-- Why a command line does not lead to a command. -/
inductive Halt where
  | help (grammar : Grammar)
  | version
  | misuse (grammar : Grammar) (message : String)
  deriving DecidableEq, Repr

/-- What was read so far. Arguments that find no use are kept. -/
structure Progress where
  arguments : Arguments := {}
  hasOperand : Bool := false
  extras : List String := []

def applyOption (grammar : Grammar) (arguments : Arguments) (option : OptionSpec × Option String) :
    Except Halt Arguments :=
  match option.1.switch with
  | .help => .error (.help grammar)
  | .version => .error .version
  | .bundle => .ok { arguments with bundles := arguments.bundles ++ [option.2] }
  | .clean => .ok { arguments with clean := true }
  | .verbose => .ok { arguments with verbose := true }
  | .progress => .ok { arguments with progress := true }

def nextOperand (rest : List (String × Mark)) : Option String :=
  match rest with
  | (text, .operand) :: _ => some text
  | _ => none

def isOption : String × Mark → Bool
  | (_, .option _) => true
  | _ => false

/-- The options of one argument take effect. The number of further arguments is given back. -/
def readOption (grammar : Grammar) (progress : Progress) (argument : String)
    (reading : Reading) (rest : List (String × Mark)) : Except Halt (Progress × Nat) :=
  match takeOption grammar argument reading (nextOperand rest) with
  | .error message => .error (.misuse grammar message)
  | .ok taken =>
      match taken.options.foldlM (applyOption grammar) progress.arguments with
      | .error halt => .error halt
      | .ok arguments =>
          .ok ({ progress with
              arguments := arguments
              extras := progress.extras ++ taken.unknown },
            if taken.usesNext then 1 else 0)

def dropSeparator (marks : List (String × Mark)) : List (String × Mark) :=
  match marks with
  | (_, .separator) :: rest => rest
  | marks => marks

/-- Behind the last option. The operand may have the separator before it or behind it. -/
def readOperands (progress : Progress) (marks : List (String × Mark)) : Progress :=
  if progress.hasOperand then
    { progress with extras := progress.extras ++ marks.map Prod.fst }
  else
    match dropSeparator marks with
    | [] => progress
    | (text, _) :: rest =>
        { arguments := { progress.arguments with directory := some text }
          hasOperand := true
          extras := progress.extras ++ (dropSeparator rest).map Prod.fst }

/-- The arguments of a command with at most one operand. -/
def readArguments (grammar : Grammar) (progress : Progress) (marks : List (String × Mark)) :
    Except Halt Progress :=
  if !marks.any isOption then .ok (readOperands progress marks)
  else
    match marks with
    | [] => .ok progress
    | (text, .option reading) :: rest =>
        match readOption grammar progress text reading rest with
        | .error halt => .error halt
        | .ok (progress, further) => readArguments grammar progress (rest.drop further)
    | (text, _) :: rest =>
        if progress.hasOperand then
          readArguments grammar { progress with extras := progress.extras ++ [text] } rest
        else
          readArguments grammar
            { progress with
              arguments := { progress.arguments with directory := some text }
              hasOperand := true }
            rest
  termination_by marks.length
  decreasing_by all_goals simp only [List.length_drop, List.length_cons]; omega

/-- The first operand is the command, and everything behind it belongs to the command. -/
def readCommand (extras : List String) (marks : List (String × Mark)) :
    Except Halt (List String × List String) :=
  match marks with
  | [] => .ok (extras, [])
  | (text, .option reading) :: rest =>
      match readOption mainGrammar ⟨{}, false, extras⟩ text reading rest with
      | .error halt => .error halt
      | .ok (progress, _) => readCommand progress.extras rest
  | [(text, .separator)] => .ok (extras ++ [text], [])
  | (text, _) :: rest => .ok (extras, text :: rest.map Prod.fst)

inductive Invocation where
  | build (arguments : Arguments)
  | list (arguments : Arguments)
  | halt (cause : Halt)
  deriving DecidableEq, Repr

/-- The arguments of a command alone. What finds no use is an error of the whole program. -/
def parseArguments (grammar : Grammar) (extras arguments : List String) :
    Except Halt Arguments :=
  match markAll grammar arguments with
  | .error message => .error (.misuse grammar message)
  | .ok marks =>
      match readArguments grammar {} marks with
      | .error halt => .error halt
      | .ok progress =>
          let unused := extras ++ progress.extras
          if unused.isEmpty then .ok progress.arguments
          else
            .error (.misuse mainGrammar ("unrecognized arguments: " ++ " ".intercalate unused))

def unknownCommand (name : String) : Halt :=
  .misuse mainGrammar
    ("argument command: invalid choice: " ++ Text.quoted name ++ " (choose from 'build', 'list')")

def parseCommand (extras : List String) : List String → Except Halt Invocation
  | [] =>
      if extras.isEmpty then .error (.help mainGrammar)
      else .error (.misuse mainGrammar ("unrecognized arguments: " ++ " ".intercalate extras))
  | name :: arguments =>
      if name = "build" then
        (parseArguments buildGrammar extras arguments).map Invocation.build
      else if name = "list" then
        (parseArguments listGrammar extras arguments).map Invocation.list
      else .error (unknownCommand name)

/-- What a command line asks for. -/
def parse (arguments : List String) : Invocation :=
  let result := do
    let marks ← (markAll mainGrammar arguments).mapError (Halt.misuse mainGrammar)
    let (extras, command) ← readCommand [] marks
    parseCommand extras command
  match result with
  | .ok invocation => invocation
  | .error halt => .halt halt

end AssetBundler.CommandLine
