import AssetBundler.Proofs.FileSystem.LongNames
import AssetBundler.Proofs.Selection.Moved
import AssetBundler.Proofs.Selection.Recursive
import AssetBundler.Proofs.Text.Lines

/-!
Selection of a directory. The pattern of a directory finds the files below it whose names end with
the extension, unless a name on the way is hidden.
-/

namespace AssetBundler

namespace Path

/-- Points on a way lead nowhere. -/
theorem placeFrom_points (start : Location) (steps : List String) :
    Tree.placeFrom start (names steps) = Tree.placeFrom start steps := by
  induction steps generalizing start with
  | nil => rfl
  | cons step rest inductionHypothesis =>
      by_cases here : step = "."
      · subst here
        exact inductionHypothesis start
      · have kept : names (step :: rest) = step :: names rest := by simp [names, here]
        rw [kept]
        exact inductionHypothesis (Tree.advance start step)

/-- Absolute paths that lead to one place are normalized alike. -/
theorem normalize_congr {path other : Path} (absolute : path.isAbsolute = true)
    (anchor : path.anchor = other.anchor) (place : path.place [] = other.place []) :
    path.normalize = other.normalize := by
  have otherAbsolute : other.isAbsolute = true := by
    rw [isAbsolute, ← anchor]
    exact absolute
  rw [normalize_eq absolute, normalize_eq otherAbsolute, anchor, place]

end Path

namespace Selection

open SelectorTable (directoryPattern)

variable {tree : Tree} {base : Path} {key ending pattern : String}

/-- The steps that a key names, points among them. -/
def keySteps (key : String) : List String := (Text.splitOn '/' key).filter (· != "")

/-- The directory of a key as a search spells it. -/
def spelled (base : Path) (key : String) : Path := Glob.startOf base key (keySteps key)

theorem plain_keySteps (plainKey : Wildcard.isMagic key = false) :
    ∀ step ∈ keySteps key, Wildcard.isMagic step = false := by
  intro step member
  rw [Wildcard.isMagic_eq_false]
  exact fun c inside => Wildcard.isMagic_eq_false.mp plainKey c
    (Text.mem_of_mem_splitOn (List.mem_of_mem_filter member) inside)

theorem isAbsolute_startOf (absolute : base.isAbsolute = true) (pattern : String)
    (steps : List String) : (Glob.startOf base pattern steps).isAbsolute = true := by
  unfold Glob.startOf
  split
  · exact absolute
  · rename_i notHere
    simpa [Path.isAbsolute] using notHere

theorem isAbsolute_spelled (absolute : base.isAbsolute = true) (key : String) :
    (spelled base key).isAbsolute = true := isAbsolute_startOf absolute key _

/-- The path that a key names is the one that a search spells, without its points and steps up. -/
theorem literalPath_eq (absolute : base.isAbsolute = true) (key : String) :
    literalPath base key = (spelled base key).normalize := by
  have parts : (Text.splitOn '/' key).filter Path.isPart = Path.names (keySteps key) := by
    rw [keySteps, Path.names, List.filter_filter]
    exact List.filter_congr fun part _ => Bool.and_comm _ _
  refine Path.normalize_congr (isAbsolute_joinText absolute key) ?_ ?_
  · rw [Path.joinText, Path.ofString, spelled, Glob.startOf]
    cases Path.anchorOf key.toList <;> rfl
  · rw [Path.place_root, Path.place_root, Path.joinText, Path.ofString, parts, spelled,
      Glob.startOf]
    cases Path.anchorOf key.toList with
    | here =>
        simp only [Path.join, Tree.placeFrom, List.foldl_append]
        exact Path.placeFrom_points _ _
    | root => exact Path.placeFrom_points _ _
    | doubleRoot => exact Path.placeFrom_points _ _

section Pattern

variable (closed : key.toList.getLast? = some '/')
include closed

omit closed in
theorem exists_front (closed : key.toList.getLast? = some '/') :
    ∃ front : String, key = front ++ "/" := by
  obtain ⟨front, shape⟩ := List.getLast?_eq_some_iff.mp closed
  refine ⟨String.ofList front, String.toList_injective ?_⟩
  rw [shape, String.toList_append, String.toList_ofList]
  rfl

/-- The pattern of a directory goes on after its key with two stars and a last name. -/
theorem segments_directoryPattern (plain : '/' ∉ ending.toList) :
    (Text.splitOn '/' (directoryPattern key ending)).filter (· != "") =
      keySteps key ++ ["**", "*" ++ ending] := by
  obtain ⟨front, rfl⟩ := exists_front closed
  have plainLast : '/' ∉ ("*" ++ ending).toList := by
    rw [String.toList_append, List.mem_append]
    exact fun either => either.elim (by decide) plain
  have shape : directoryPattern (front ++ "/") ending =
      front ++ String.singleton '/' ++ ("**" ++ String.singleton '/' ++ ("*" ++ ending)) := by
    simp only [directoryPattern, String.append_assoc]
    rfl
  have whole : front ++ "/" = front ++ String.singleton '/' ++ "" := by
    rw [String.append_empty]
    rfl
  have filled : ("*" ++ ending != "") = true := by
    rw [bne_iff_ne]
    exact fun empty => absurd (String.append_eq_empty_iff.mp empty).1 (by decide)
  have last : ["*" ++ ending].filter (· != "") = ["*" ++ ending] :=
    List.filter_eq_self.mpr (List.forall_mem_singleton.mpr filled)
  have nothing : (Text.splitOn '/' "").filter (· != "") = [] := by decide +kernel
  have stars : (Text.splitOn '/' "**").filter (· != "") = ["**"] := by decide +kernel
  rw [keySteps, shape, whole, Text.splitOn_append, Text.splitOn_append, Text.splitOn_append,
    Text.splitOn_of_not_mem plainLast, List.filter_append, List.filter_append, List.filter_append,
    last, nothing, stars, List.append_nil, List.singleton_append]

theorem anchorOf_directoryPattern :
    Path.anchorOf (directoryPattern key ending).toList = Path.anchorOf key.toList := by
  obtain ⟨front, rfl⟩ := exists_front closed
  have shape : (directoryPattern (front ++ "/") ending).toList =
      front.toList ++ '/' :: '*' :: '*' :: '/' :: '*' :: ending.toList := by
    simp [directoryPattern]
  have whole : (front ++ "/").toList = front.toList ++ ['/'] := String.toList_append
  rw [shape, whole]
  generalize front.toList = characters
  match characters with
  | [] => rfl
  | [first] => by_cases slash : first = '/' <;> simp [Path.anchorOf, slash]
  | [first, second] =>
      by_cases slash : first = '/' <;> by_cases next : second = '/' <;>
        simp [Path.anchorOf, slash, next]
  | first :: second :: third :: rest =>
      by_cases slash : first = '/' <;> by_cases next : second = '/' <;>
        by_cases later : third = '/' <;> simp [Path.anchorOf, slash, next, later]

variable (plainKey : Wildcard.isMagic key = false) (plain : '/' ∉ ending.toList)
include plainKey plain

theorem splitMagic_directoryPattern :
    Glob.splitMagic ((Text.splitOn '/' (directoryPattern key ending)).filter (· != "")) =
      (keySteps key, ["**", "*" ++ ending]) := by
  have literal : ∀ step ∈ keySteps key, (!Wildcard.isMagic step) = true := fun step member => by
    rw [plain_keySteps plainKey step member, Bool.not_false]
  have stars : (!Wildcard.isMagic "**") = false := by decide +kernel
  rw [segments_directoryPattern closed plain, Glob.splitMagic,
    List.takeWhile_append_of_pos literal, List.dropWhile_append_of_pos literal,
    List.takeWhile_cons_of_neg (by rw [stars]; exact Bool.false_ne_true),
    List.dropWhile_cons_of_neg (by rw [stars]; exact Bool.false_ne_true), List.append_nil]

/-- A search for the files of a directory starts from it. -/
theorem searchStart_directoryPattern (base : Path) :
    Glob.searchStart base (directoryPattern key ending) = spelled base key := by
  rw [Glob.searchStart, splitMagic_directoryPattern closed plainKey plain, spelled, Glob.startOf,
    Glob.startOf, anchorOf_directoryPattern closed]

theorem searchSegments_directoryPattern :
    Glob.searchSegments (directoryPattern key ending) = ["**", "*" ++ ending] := by
  rw [Glob.searchSegments, splitMagic_directoryPattern closed plainKey plain]

end Pattern

section Below

variable {path : Path} {names : List String}

theorem place_below_shown (shown : Glob.AreShown names) :
    (path.below names).place [] = path.place [] ++ names := by
  rw [Path.place_root, Path.place_root, Path.below, Tree.placeFrom, List.foldl_append]
  exact Tree.placeFrom_names (fun name member => Glob.step_of_shown (shown name member)) _

variable (absolute : base.isAbsolute = true) (clean : Tree.holdsNull (spelled base key) = false)
include absolute clean

theorem literalPath_of_clean :
    literalPath base key = ⟨(spelled base key).anchor, (spelled base key).place []⟩ := by
  rw [literalPath_eq absolute, Path.normalize_of_clean (isAbsolute_spelled absolute key)]
  exact fun name member => Path.null_not_mem clean (Path.mem_place member).1

/-- What stands below the directory that a search spells stands below the one that the key names. -/
theorem normalize_below_spelled (sound : tree.IsSound) (shown : Glob.AreShown names) {node : Node}
    (there : tree.get? ((spelled base key).place [] ++ names) = some node) :
    ((spelled base key).below names).normalize = (literalPath base key).below names := by
  have absoluteBelow : ((spelled base key).below names).isAbsolute = true :=
    isAbsolute_spelled absolute key
  rw [Path.normalize_of_clean absoluteBelow, literalPath_of_clean absolute clean,
    place_below_shown shown]
  · rfl
  · rw [place_below_shown shown]
    exact fun name member => (sound.named _ node there name member).2.2

end Below

/-- A file that belongs to a directory. It stands below the directory, no name on the way to it is
hidden, its name ends with the extension, and a search can spell the way to it. -/
def IsListed (tree : Tree) (base : Path) (key ending : String) (path : Path) : Prop :=
  ∃ before name, path = (literalPath base key).below (before ++ [name]) ∧
    Glob.AreShown (before ++ [name]) ∧ ending.toList <:+ name.toList ∧
    (∃ contents, tree.get? path.parts = some (.file contents)) ∧
    Utf8.size ((spelled base key).below (before ++ [name])).toString ≤ Tree.pathLimit ∧
    ∀ part ∈ path.parts, Utf8.size part ≤ Tree.nameLimit

section Listing

variable (sound : tree.IsSound) (free : tree.IsLinkFree) (straight : base.IsStraight)
  (cleanBase : ∀ part ∈ base.parts, '\x00' ∉ part.toList)
  (closed : key.toList.getLast? = some '/') (plainKey : Wildcard.isMagic key = false)
  (level : ".." ∉ Text.splitOn '/' key) (cleanKey : '\x00' ∉ key.toList)
  (plain : '/' ∉ ending.toList) (plainEnding : Wildcard.isMagic ending = false)

include cleanBase cleanKey in
theorem holdsNull_spelled : Tree.holdsNull (spelled base key) = false := by
  have cleanSteps : ∀ step ∈ keySteps key, '\x00' ∉ step.toList := fun step member inside =>
    cleanKey (Text.mem_of_mem_splitOn (List.mem_of_mem_filter member) inside)
  refine Path.holdsNull_of_clean ?_
  unfold spelled Glob.startOf
  split
  · exact List.forall_mem_append.mpr ⟨cleanBase, cleanSteps⟩
  · exact cleanSteps

include straight level in
theorem level_spelled : ".." ∉ (spelled base key).parts := by
  have levelSteps : ".." ∉ keySteps key := fun up => level (List.mem_of_mem_filter up)
  unfold spelled Glob.startOf
  split
  · exact fun up => (List.mem_append.mp up).elim (fun inBase => (straight.plain _ inBase).2 rfl)
      levelSteps
  · exact levelSteps

include plain in
theorem not_endsWith_directoryPattern : (directoryPattern key ending).endsWith "/" = false := by
  rw [Bool.eq_false_iff, Ne, Text.endsWith_iff]
  rintro ⟨front, whole⟩
  have shape : (directoryPattern key ending).toList =
      (key ++ "**/").toList ++ '*' :: ending.toList := by
    simp [directoryPattern]
  have last : ((key ++ "**/").toList ++ '*' :: ending.toList).getLast? = some '/' := by
    rw [← shape, ← whole]
    exact List.getLast?_concat
  rw [List.getLast?_append_of_ne_nil _ (List.cons_ne_nil _ _)] at last
  rcases List.mem_cons.mp (List.mem_of_getLast? last) with isStar | inside
  · cases isStar
  · exact plain inside

include sound free straight level in
/-- A file below the directory can be looked up when the way to it is short. -/
theorem isFileAt_below_spelled {names before : List String} {name : String}
    (shown : Glob.AreShown names) (last : names = before ++ [name]) :
    Glob.isFileAt tree ((spelled base key).below names) = true ↔
      (∃ contents, tree.get? ((spelled base key).place [] ++ names) = some (.file contents)) ∧
      Utf8.size ((spelled base key).below names).toString ≤ Tree.pathLimit ∧
      ∀ part ∈ (spelled base key).place [] ++ names, Utf8.size part ≤ Tree.nameLimit := by
  subst last
  obtain ⟨shownBefore, shownLast⟩ := List.forall_mem_append.mp shown
  obtain ⟨notHere, notUp⟩ := Glob.step_of_shown (shownLast name List.mem_cons_self)
  have levelBelow : ".." ∉ ((spelled base key).below before).parts := fun up =>
    (List.mem_append.mp up).elim (level_spelled straight level) fun inBefore =>
      (Glob.step_of_shown (shownBefore _ inBefore)).2 rfl
  rw [Glob.isFileAt_eq_true free, ← exists_and_left, Path.below_append]
  simp only [Tree.locate_level_iff sound free levelBelow notHere notUp,
    place_below_shown shownBefore, List.append_assoc, exists_and_right]

include sound free closed plainKey plain plainEnding in
theorem mem_searched_directory (absolute : base.isAbsolute = true) {found : Path} :
    found ∈ Glob.searched tree base (directoryPattern key ending) ↔
      ∃ before name, Glob.AreShown (before ++ [name]) ∧ ending.toList <:+ name.toList ∧
        found = (spelled base key).below (before ++ [name]) ∧
        Glob.isFileAt tree found = true := by
  have text : ("*" ++ ending).toList = '*' :: ending.toList := String.toList_append
  have magic : Wildcard.isMagic ("*" ++ ending) = true := by simp [Wildcard.isMagic]
  have single : Glob.isRecursive ("*" ++ ending) = false := by
    rw [Glob.isRecursive, beq_eq_false_iff_ne]
    intro same
    have isStar : '*' ∈ ending.toList := by
      rw [List.tail_eq_of_cons_eq (text.symm.trans (congrArg String.toList same))]
      exact List.mem_singleton_self _
    exact (Wildcard.isMagic_eq_false.mp plainEnding _ isStar).1 rfl
  have notHidden : Glob.isHidden ("*" ++ ending) = false := by
    rw [Glob.isHidden, Bool.eq_false_iff, Ne, String.startsWith_string_iff, text]
    exact fun starts => absurd (List.cons_prefix_cons.mp starts).1 (by decide)
  rw [Glob.searched, searchStart_directoryPattern closed plainKey plain,
    searchSegments_directoryPattern closed plainKey plain,
    Glob.mem_recursive_iff sound free (isAbsolute_spelled absolute key) magic single notHidden]
  simp only [Wildcard.matchesName_star plainEnding]

include sound free straight cleanBase closed plainKey level cleanKey plain plainEnding

/-- A search comes upon the files that belong to the directory, and upon no others. -/
theorem exists_searched_iff (path : Path) :
    (∃ found ∈ Glob.searched tree base (directoryPattern key ending), found.normalize = path) ↔
      IsListed tree base key ending path := by
  have clean := holdsNull_spelled cleanBase cleanKey
  have directory := literalPath_of_clean straight.absolute clean
  have parts (names : List String) : ((literalPath base key).below names).parts =
      (spelled base key).place [] ++ names := by rw [directory, Path.below]
  simp only [mem_searched_directory sound free closed plainKey plain plainEnding straight.absolute]
  constructor
  · rintro ⟨found, ⟨before, name, shown, ends, rfl, isFile⟩, rfl⟩
    obtain ⟨⟨contents, there⟩, short, fits⟩ :=
      (isFileAt_below_spelled sound free straight level shown rfl).mp isFile
    have whole := normalize_below_spelled straight.absolute clean sound shown there
    refine ⟨before, name, whole, shown, ends, ⟨contents, ?_⟩, short, ?_⟩
    · rwa [whole, parts]
    · rwa [whole, parts]
  · rintro ⟨before, name, rfl, shown, ends, ⟨contents, there⟩, short, fits⟩
    rw [parts] at there fits
    exact ⟨_, ⟨before, name, shown, ends, rfl,
      (isFileAt_below_spelled sound free straight level shown rfl).mpr
        ⟨⟨contents, there⟩, short, fits⟩⟩,
      normalize_below_spelled straight.absolute clean sound shown there⟩

theorem expandPattern_directory
    (noFile : tree.isFile [] (literalPath base (directoryPattern key ending)) = .ok false) :
    ∃ found, expandPattern tree base (directoryPattern key ending) = .ok found ∧
      Path.IsSorted found ∧ ∀ path, path ∈ found ↔ IsListed tree base key ending path := by
  have magic : Wildcard.isMagic (directoryPattern key ending) = true := by
    simp [Wildcard.isMagic, directoryPattern]
  have clean : Tree.holdsNull (Glob.searchStart base (directoryPattern key ending)) = false := by
    rw [searchStart_directoryPattern closed plainKey plain]
    exact holdsNull_spelled cleanBase cleanKey
  have finds := @Glob.files_of_clean tree _ _ clean (not_endsWith_directoryPattern plain)
  refine ⟨Path.sort ((Glob.searched tree base (directoryPattern key ending)).map Path.normalize),
    ?_, Path.isSorted_sort _, fun path => ?_⟩
  · rw [expandPattern_search noFile, magic, finds]
    rfl
  · rw [Path.mem_sort, List.mem_map]
    exact exists_searched_iff sound free straight cleanBase closed plainKey level cleanKey plain
      plainEnding path

/-- A directory selects its files, sorted by the parts of their paths, unless the pattern itself
names a file or cannot be looked up. -/
theorem expand_directory : ∃ table, SelectorTable.addDirectory {} key ending = .ok table ∧
    (∀ fault, tree.isFile [] (literalPath base (directoryPattern key ending)) = .error fault →
      expand tree base table.patterns = .error (.file fault)) ∧
    (tree.isFile [] (literalPath base (directoryPattern key ending)) = .ok false →
      ∃ paths, expand tree base table.patterns = .ok paths ∧ paths.Pairwise Path.Before ∧
        (∀ path, path ∈ paths ↔ IsListed tree base key ending path) ∧
        (tree.get? (literalPath base key).parts ≠ some .directory → paths = [])) := by
  have accepted : SelectorTable.endsWithSeparator key = true := by
    rw [SelectorTable.endsWithSeparator, closed]
    rfl
  refine ⟨⟨[(key, .directory)], [directoryPattern key ending]⟩, ?_, ?_, ?_⟩
  · rw [SelectorTable.addDirectory, if_pos accepted]
    rfl
  · intro fault refused
    rw [expand, expandFrom, expandPattern_refused refused]
  · intro noFile
    obtain ⟨found, finds, sorted, members⟩ := expandPattern_directory sound free straight cleanBase
      closed plainKey level cleanKey plain plainEnding noFile
    obtain ⟨paths, added, ordered, fresh⟩ := addNew_eq sorted []
    have listed (path : Path) : path ∈ paths ↔ IsListed tree base key ending path := by
      rw [fresh, members]
      exact and_iff_left List.not_mem_nil
    refine ⟨paths, ?_, ordered, listed, fun noDirectory => ?_⟩
    · rw [expand, expandFrom, finds]
      simp only [expandFrom, added, List.nil_append]
    · refine List.eq_nil_iff_forall_not_mem.mpr fun path member => noDirectory ?_
      obtain ⟨before, name, rfl, -, -, ⟨contents, there⟩, -⟩ := (listed path).mp member
      exact sound.above there (List.prefix_append _ _) (by simp [Path.below])

end Listing

/-- The name of one directory starts with the name of another, and one directory is hidden. -/
def sampleSources : Tree :=
  ⟨[(["p"], .directory), (["p", "src"], .directory), (["p", "src", "lib-x"], .directory),
    (["p", "src", "lib-x", "b.js"], .file []), (["p", "src", "lib"], .directory),
    (["p", "src", "lib", "a.js"], .file []), (["p", "src", "lib", "a.css"], .file []),
    (["p", "src", ".old"], .directory), (["p", "src", ".old", "c.js"], .file [])]⟩

theorem expand_directory_sample :
    ∃ table, SelectorTable.addDirectory {} "src/" ".js" = .ok table ∧
      ∃ paths, expand sampleSources ⟨.root, ["p"]⟩ table.patterns = .ok paths ∧
        paths.Pairwise Path.Before ∧ ⟨.root, ["p", "src", "lib", "a.js"]⟩ ∈ paths ∧
        ∀ path, path ∈ paths ↔ IsListed sampleSources ⟨.root, ["p"]⟩ "src/" ".js" path := by
  have sound : sampleSources.IsSound := Tree.sound_of_nodes (by decide +kernel)
  have free : sampleSources.IsLinkFree := Tree.isLinkFree_of_nodes (by decide +kernel)
  have straight : Path.IsStraight ⟨.root, ["p"]⟩ := ⟨rfl, by unfold Path.IsPlain; decide +kernel⟩
  have noFile : sampleSources.isFile []
      (literalPath ⟨.root, ["p"]⟩ (directoryPattern "src/" ".js")) = .ok false := by decide +kernel
  have listed : IsListed sampleSources ⟨.root, ["p"]⟩ "src/" ".js"
      ⟨.root, ["p", "src", "lib", "a.js"]⟩ :=
    ⟨["lib"], "a.js", by decide +kernel, by unfold Glob.AreShown; decide +kernel,
      by decide +kernel, ⟨[], by decide +kernel⟩, by decide +kernel, by decide +kernel⟩
  obtain ⟨table, added, -, lists⟩ := @expand_directory _ ⟨.root, ["p"]⟩ "src/" ".js" sound free
    straight (by decide +kernel) (by decide +kernel) (by decide +kernel) (by decide +kernel)
    (by decide +kernel) (by decide +kernel) (by decide +kernel)
  obtain ⟨paths, selects, ordered, members, -⟩ := lists noFile
  exact ⟨table, added, paths, selects, ordered, (members _).mpr listed, members⟩

section LongKey

open AssetBundler.Tree (longName toList_longName not_mem_longName)

/-- The key of a directory with a name that is too long. -/
def longKey : String := longName ++ "/"

theorem toList_longKey : longKey.toList = longName.toList ++ ['/'] := String.toList_append

theorem closed_longKey : longKey.toList.getLast? = some '/' := by
  rw [toList_longKey]
  exact List.getLast?_concat

theorem plain_longKey : Wildcard.isMagic longKey = false := by
  rw [Wildcard.isMagic_eq_false, toList_longKey]
  intro c member
  rcases List.mem_append.mp member with inName | isSlash
  · by_cases same : c = 'n'
    · subst same
      decide
    · exact absurd inName (not_mem_longName same)
  · rw [List.mem_singleton.mp isSlash]
    decide

theorem splitOn_longKey : Text.splitOn '/' longKey = [longName, ""] := by
  have whole : longKey = longName ++ String.singleton '/' ++ "" := by
    rw [String.append_empty]
    rfl
  rw [whole, Text.splitOn_append, Text.splitOn_of_not_mem (not_mem_longName (by decide))]
  rfl

theorem keySteps_longKey : keySteps longKey = [longName] := by
  rw [keySteps, splitOn_longKey]
  decide +kernel

theorem anchorOf_longKey : Path.anchorOf longKey.toList = .here := by
  rw [toList_longKey, toList_longName]
  rfl

theorem literalPath_longKey : literalPath ⟨.root, []⟩ longKey = ⟨.root, [longName]⟩ := by
  have directory : spelled ⟨.root, []⟩ longKey = ⟨.root, [longName]⟩ := by
    rw [spelled, Glob.startOf, anchorOf_longKey, keySteps_longKey]
    rfl
  have plain : Path.IsPlain ⟨.root, [longName]⟩ := by
    unfold Path.IsPlain
    decide +kernel
  have clean : Tree.holdsNull ⟨.root, [longName]⟩ = false :=
    Path.holdsNull_of_clean (List.forall_mem_singleton.mpr (not_mem_longName (by decide)))
  rw [literalPath_of_clean rfl (directory ▸ clean), directory, plain.place_eq]

theorem literalPath_longPattern :
    literalPath ⟨.root, []⟩ (directoryPattern longKey ".js") =
      ⟨.root, [longName, "**", "*.js"]⟩ := by
  have steps : keySteps (directoryPattern longKey ".js") = [longName, "**", "*.js"] := by
    rw [keySteps, segments_directoryPattern closed_longKey (by decide +kernel), keySteps_longKey]
    rfl
  have path : spelled ⟨.root, []⟩ (directoryPattern longKey ".js") =
      ⟨.root, [longName, "**", "*.js"]⟩ := by
    rw [spelled, Glob.startOf, anchorOf_directoryPattern closed_longKey, anchorOf_longKey, steps]
    rfl
  have plain : Path.IsPlain ⟨.root, [longName, "**", "*.js"]⟩ := by
    unfold Path.IsPlain
    decide +kernel
  have clean : Tree.holdsNull ⟨.root, [longName, "**", "*.js"]⟩ = false :=
    Path.holdsNull_of_clean
      (List.forall_mem_cons.mpr ⟨not_mem_longName (by decide), by decide +kernel⟩)
  rw [literalPath_of_clean rfl (path ▸ clean), path, plain.place_eq]

/-- A directory that does not exist is refused when its name is too long. -/
theorem expand_directory_refused :
    Wildcard.isMagic longKey = false ∧ ".." ∉ Text.splitOn '/' longKey ∧
      Tree.get? {} (literalPath ⟨.root, []⟩ longKey).parts = none ∧
      Tree.isFile {} [] (literalPath ⟨.root, []⟩ (directoryPattern longKey ".js")) ≠ .ok true ∧
      expand {} ⟨.root, []⟩ [directoryPattern longKey ".js"] =
        .error (.file (.refused .nameTooLong ⟨.root, [longName, "**", "*.js"]⟩)) := by
  have sound : Tree.IsSound {} := Tree.sound_of_nodes (by decide)
  have free : Tree.IsLinkFree {} := Tree.isLinkFree_of_nodes (by decide)
  have long : Tree.nameLimit < Utf8.size longName := by decide +kernel
  have straight : Path.IsStraight ⟨.root, [longName, "**", "*.js"]⟩ :=
    ⟨rfl, by unfold Path.IsPlain; decide +kernel⟩
  have clean : Tree.holdsNull ⟨.root, [longName, "**", "*.js"]⟩ = false := by
    rw [← literalPath_longPattern]
    exact Path.holdsNull_normalize (isAbsolute_joinText rfl _)
  have start : [] ++ [longName] <+: [longName, "**", "*.js"] := ⟨["**", "*.js"], rfl⟩
  have refused : Tree.refusal? {} [] _ = _ :=
    Tree.refusal?_of_long_name sound free straight clean start rfl long
  have asked := Tree.refusal?_eq_some.mp refused
  rw [← literalPath_longPattern] at asked
  refine ⟨plain_longKey, ?_, ?_, ?_, ?_⟩
  · rw [splitOn_longKey]
    decide +kernel
  · rw [literalPath_longKey]
    rfl
  · rw [asked]
    simp
  · rw [expand, expandFrom, expandPattern_refused asked, literalPath_longPattern]

end LongKey

end Selection

end AssetBundler
