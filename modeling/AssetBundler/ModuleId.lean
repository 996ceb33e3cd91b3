import AssetBundler.SelectorTable
import AssetBundler.Text.Lines

/-!
Identifiers of modules. The selectors cut what stands before a module in its path, the extension
goes, and a namespace comes in front.
-/

namespace AssetBundler.ModuleId

/-- A backslash counts as a slash. -/
def slashed (text : String) : List Char :=
  text.toList.map fun c => if c = '\\' then '/' else c

/-- A namespace ends with a slash. -/
def normalizeNamespace (scope : String) : String :=
  let text := slashed scope
  String.ofList (if text.getLast? = some '/' then text else text ++ ['/'])

/-- A line feed at the very end does not count. -/
def atEnd (text : List Char) : Bool := text == [] || text == ['\n']

/-- The text after the nearest occurrence of a key, if no line feed stands before it. A closing
occurrence has nothing after it. -/
def afterKey (first : Char) (more : List Char) (closing : Bool) (text : List Char) :
    Option (List Char) :=
  match text with
  | [] => none
  | c :: others =>
      let rest := others.drop more.length
      if c = first ∧ more.isPrefixOf others ∧ (closing → atEnd rest) then some rest
      else if c = '\n' then none
      else afterKey first more closing others

theorem afterKey_length {first : Char} {more : List Char} {closing : Bool}
    {text rest : List Char} (found : afterKey first more closing text = some rest) :
    rest.length < text.length := by
  induction text with
  | nil => simp [afterKey] at found
  | cons c others inductionHypothesis =>
      simp only [afterKey] at found
      split at found
      · simp only [Option.some.injEq] at found
        simp only [← found, List.length_drop, List.length_cons]
        omega
      · split at found
        · simp at found
        · exact Nat.lt_succ_of_lt (inductionHypothesis found)

/-- Every part up to a key is replaced. -/
def replaceKeys (first : Char) (more : List Char) (closing : Bool) (replacement : List Char)
    (text : List Char) : List Char :=
  match _found : afterKey first more closing text with
  | some rest => replacement ++ replaceKeys first more closing replacement rest
  | none =>
      match text with
      | [] => []
      | c :: others => c :: replaceKeys first more closing replacement others
  termination_by text.length
  decreasing_by
    · exact afterKey_length (by assumption)
    · simp

/-- The last line loses its characters. -/
def dropLastLine (text : List Char) : List Char :=
  let reversed := text.reverse
  let closing := reversed.take 1 |>.filter (· == '\n')
  (closing ++ (reversed.drop closing.length).dropWhile (· != '\n')).reverse

/-- A file selector leaves the base name of the file, a directory selector what is below it. The
empty key is found after each character. -/
def stripSelector (path : List Char) (selector : Selector) : List Char :=
  match selector.kind, slashed selector.key with
  | .file, [] => dropLastLine path
  | .file, first :: more =>
      replaceKeys first more true ((Text.splitAt '/' (first :: more)).getLast?.getD []) path
  | .directory, [] => path.filter (· == '\n')
  | .directory, first :: more => replaceKeys first more false [] path

/-- The selectors are applied in their order, each to what the one before has left. -/
def stripSelectors (path : String) (selectors : List Selector) : String :=
  String.ofList (selectors.foldl stripSelector (slashed path))

def isExtensionChar (c : Char) : Bool := ('a' ≤ c && c ≤ 'z') || ('0' ≤ c && c ≤ '9')

/-- A point and the characters of an extension at the end are dropped. -/
def dropExtension : List Char → List Char
  | [] => []
  | c :: rest =>
      let after := rest.dropWhile isExtensionChar
      if c = '.' ∧ rest.takeWhile isExtensionChar ≠ [] ∧ atEnd after then after
      else c :: dropExtension rest

/-- The identifier of the module at a path. -/
def ofPath (path : String) (selectors : List Selector) (scope : String) : String :=
  normalizeNamespace scope ++
    String.ofList (dropExtension (stripSelectors path selectors).toList)

end AssetBundler.ModuleId
