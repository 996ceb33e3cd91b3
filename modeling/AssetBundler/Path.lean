import AssetBundler.Text.Lines

/-!
Paths as a list of parts. Two slashes at the start are kept apart from one, and from three on they
count as one.
-/

namespace AssetBundler

/-- Where a path starts. -/
inductive Anchor where
  | here
  | root
  | doubleRoot
  deriving DecidableEq, Repr, Inhabited

def Anchor.text : Anchor → String
  | .here => ""
  | .root => "/"
  | .doubleRoot => "//"

/-- The parts of a path from text are neither empty nor a single point. -/
structure Path where
  anchor : Anchor
  parts : List String
  deriving DecidableEq, Repr, Inhabited

namespace Path

def anchorOf (text : List Char) : Anchor :=
  match text with
  | '/' :: '/' :: '/' :: _ => .root
  | '/' :: '/' :: _ => .doubleRoot
  | '/' :: _ => .root
  | _ => .here

def isPart (text : String) : Bool := text != "" && text != "."

def ofString (text : String) : Path :=
  ⟨anchorOf text.toList, (Text.splitOn '/' text).filter isPart⟩

/-- The current directory is written as a point. -/
def toString (path : Path) : String :=
  let text := path.anchor.text ++ "/".intercalate path.parts
  if text = "" then "." else text

instance : ToString Path := ⟨toString⟩

/-- The path with its kind, as messages show it. -/
def quoted (path : Path) : String := "PosixPath(" ++ Text.quoted path.toString ++ ")"

def isAbsolute (path : Path) : Bool := path.anchor != .here

/-- A path with an anchor of its own replaces the base. -/
def join (base path : Path) : Path :=
  match path.anchor with
  | .here => ⟨base.anchor, base.parts ++ path.parts⟩
  | _ => path

def joinText (base : Path) (text : String) : Path := base.join (ofString text)

/-- The last part, or the empty text when there is none. -/
def name (path : Path) : String := path.parts.getLast?.getD ""

def parent (path : Path) : Path := ⟨path.anchor, path.parts.dropLast⟩

/-- The stem and the extension of a name. The last point parts them when characters stand on both
of its sides. -/
def splitName (name : String) : String × String :=
  let reversed := name.toList.reverse
  let extension := reversed.takeWhile (· != '.')
  let stem := (reversed.drop (extension.length + 1)).reverse
  if extension.length < reversed.length ∧ extension ≠ [] ∧ stem ≠ [] then
    (String.ofList stem, String.ofList ('.' :: extension.reverse))
  else (name, "")

/-- Why an extension cannot be set. -/
inductive SuffixFault where
  | invalidSuffix (suffix : String)
  | emptyName (path : Path)
  deriving DecidableEq, Repr

def SuffixFault.message : SuffixFault → String
  | .invalidSuffix suffix => "Invalid suffix " ++ Text.quoted suffix
  | .emptyName path => path.quoted ++ " has an empty name"

/-- An extension starts with a point, has more after it, and holds no slash. -/
def isSuffix (suffix : String) : Bool :=
  suffix == "" || (!suffix.toList.contains '/' && suffix.startsWith "." && suffix != ".")

def withSuffix (path : Path) (suffix : String) : Except SuffixFault Path :=
  if !isSuffix suffix then .error (.invalidSuffix suffix)
  else if path.name = "" then .error (.emptyName path)
  else .ok ⟨path.anchor, path.parts.dropLast ++ [(splitName path.name).1 ++ suffix]⟩

/-- The path below a base, or none when its first parts are not those of the base. -/
def relativeTo? (path base : Path) : Option Path :=
  if path.anchor = base.anchor ∧ base.parts.isPrefixOf path.parts then
    some ⟨.here, path.parts.drop base.parts.length⟩
  else none

/-- The parts are stacked with the last one on top. A step up takes the top away, is lost at the
root, and is kept where nothing is left to take. A point stays where it is. -/
def pushPart (anchored : Bool) (stack : List String) (part : String) : List String :=
  if part = "." then stack
  else if part ≠ ".." then part :: stack
  else
    match stack with
    | [] => if anchored then [] else [part]
    | top :: below => if top = ".." then part :: stack else below

/-- A null character ends a path, so the part that holds one is the last and ends before it. This
is the rule of the releases up to 3.11.4 of the path library. Later ones keep the whole text. -/
def cutAtNull : List String → List String
  | [] => []
  | part :: rest =>
      if part.toList.contains '\x00' then
        [String.ofList (part.toList.takeWhile (· != '\x00'))].filter isPart
      else part :: cutAtNull rest

theorem cutAtNull_eq {parts : List String} (clean : ∀ part ∈ parts, '\x00' ∉ part.toList) :
    cutAtNull parts = parts := by
  induction parts with
  | nil => rfl
  | cons part rest inductionHypothesis =>
      have first : part.toList.contains '\x00' = false := by
        simpa using clean part List.mem_cons_self
      rw [cutAtNull, first, inductionHypothesis fun other member =>
        clean other (List.mem_cons_of_mem part member)]
      rfl

/-- The path without steps up, as far as its text allows. -/
def normalize (path : Path) : Path :=
  ⟨path.anchor, cutAtNull (path.parts.foldl (pushPart path.isAbsolute) []).reverse⟩

/-- The path as seen from a directory. -/
def absolute (path directory : Path) : Path := (directory.join path).normalize

/-- The parts after the longest common start of two lists. -/
def dropCommon : List String → List String → List String × List String
  | first :: rest, second :: others =>
      if first = second then dropCommon rest others else (first :: rest, second :: others)
  | first, second => (first, second)

/-- The way from a directory to a path: steps up, then the parts below. Both are absolute and
without steps up. -/
def relativeFrom (path directory : Path) : Path :=
  let (up, down) := dropCommon directory.parts path.parts
  ⟨.here, up.map (fun _ => "..") ++ down⟩

/-- The anchor and the parts, which decide the order of paths. -/
def components (path : Path) : List String := path.anchor.text :: path.parts

def sort (paths : List Path) : List Path :=
  paths.mergeSort fun first second => !List.lex second.components first.components (· < ·)

/-- The text before the last slash, without the slashes at its end unless it holds nothing else. -/
def directoryText (text : String) : String :=
  let start := (text.toList.reverse.dropWhile (· != '/'))
  let trimmed := start.dropWhile (· == '/')
  String.ofList (if trimmed.isEmpty then start.reverse else trimmed.reverse)

example : (directoryText "a//b.scss", directoryText "//b.scss", directoryText "b") =
    ("a", "//", "") := by decide +kernel

end Path

end AssetBundler
