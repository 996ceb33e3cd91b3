import AssetBundler.Proofs.Builder.Bundle
import AssetBundler.Proofs.Builder.Footprint
import AssetBundler.Proofs.FileSystem.Probing
import AssetBundler.Proofs.Path.Relative
import AssetBundler.Proofs.Selection.Endings

/-!
Changes of a source on its way through a compiler. Only its contents and the extension of its name
change, and of all changes the last one of each kind decides.
-/

namespace AssetBundler

namespace Path

variable {path base : Path} {name stem suffix other : String}

/-- A point and what follows it, without another point, as in `.js` and `.css`. -/
def IsExtension (suffix : String) : Prop :=
  ∃ letters, suffix.toList = '.' :: letters ∧ letters ≠ [] ∧ '.' ∉ letters ∧ '/' ∉ letters

/-- What a transform puts at the end of a name is an extension. -/
theorem isExtension_outputExtension (dialect : Dialect) : IsExtension dialect.outputExtension := by
  unfold Dialect.outputExtension
  cases dialect.family
  · exact ⟨['j', 's'], by decide +kernel⟩
  · exact ⟨['c', 's', 's'], by decide +kernel⟩

theorem IsExtension.noSlash (isExtension : IsExtension suffix) : '/' ∉ suffix.toList := by
  obtain ⟨letters, shape, -, -, noSlash⟩ := isExtension
  rw [shape, List.mem_cons]
  exact not_or.mpr ⟨by decide, noSlash⟩

theorem IsExtension.isSuffix (isExtension : IsExtension suffix) : isSuffix suffix = true := by
  have noSlash := isExtension.noSlash
  obtain ⟨letters, shape, filled, -, -⟩ := isExtension
  have start : suffix.startsWith "." = true := by
    rw [String.startsWith_string_iff, shape]
    exact ⟨letters, rfl⟩
  have more : suffix ≠ "." := by
    intro point
    rw [point] at shape
    exact filled (List.tail_eq_of_cons_eq shape).symm
  simp [Path.isSuffix, start, noSlash, more]

/-- A stem that takes an extension is its stem, whatever points it holds itself. -/
theorem splitName_append (filled : stem ≠ "") (isExtension : IsExtension suffix) :
    splitName (stem ++ suffix) = (stem, suffix) := by
  obtain ⟨letters, shape, more, noPoint, -⟩ := isExtension
  have turned : (stem ++ suffix).toList.reverse =
      letters.reverse ++ '.' :: stem.toList.reverse := by
    rw [String.toList_append, shape]
    simp
  have clean : ∀ c ∈ letters.reverse, (c != '.') = true := by
    intro c member
    rw [bne_iff_ne]
    rintro rfl
    exact noPoint (List.mem_reverse.mp member)
  have taken : (letters.reverse ++ '.' :: stem.toList.reverse).takeWhile (· != '.') =
      letters.reverse := by
    rw [List.takeWhile_append_of_pos clean, List.takeWhile_cons_of_neg (by decide), List.append_nil]
  have left : (letters.reverse ++ '.' :: stem.toList.reverse).drop (letters.reverse.length + 1) =
      stem.toList.reverse := by
    rw [List.drop_append]
    simp
  simp only [splitName, turned, taken, left, List.reverse_reverse]
  rw [if_pos ⟨by simp, by simpa using more, by simpa using filled⟩, ← shape, String.ofList_toList,
    String.ofList_toList]

/-- Something is left of a name without its extension. -/
theorem stem_ne_empty (filled : name ≠ "") : (splitName name).1 ≠ "" := by
  simp only [splitName]
  split
  · rename_i parted
    intro empty
    exact parted.2.2 (by simpa using empty)
  · exact filled

/-- The path with another extension. -/
def renamed (path : Path) (suffix : String) : Path :=
  ⟨path.anchor, path.parts.dropLast ++ [(splitName path.name).1 ++ suffix]⟩

@[simp] theorem parent_renamed (path : Path) (suffix : String) :
    (path.renamed suffix).parent = path.parent := by
  rw [parent, renamed, List.dropLast_concat, parent]

theorem name_renamed (path : Path) (suffix : String) :
    (path.renamed suffix).name = (splitName path.name).1 ++ suffix := by
  rw [name, renamed, List.getLast?_concat, Option.getD_some]

theorem withSuffix_eq (named : path.name ≠ "") (isExtension : IsExtension suffix) :
    path.withSuffix suffix = .ok (path.renamed suffix) := by
  rw [withSuffix, isExtension.isSuffix, if_neg (by decide), if_neg named]
  rfl

/-- Another extension takes the place of the one before. -/
theorem renamed_renamed (named : path.name ≠ "") (isExtension : IsExtension suffix)
    (other : String) : (path.renamed suffix).renamed other = path.renamed other := by
  have parts := splitName_append (stem_ne_empty named) isExtension
  rw [renamed, name_renamed, parts]
  simp only [renamed, List.dropLast_concat]

theorem name_renamed_ne_empty (named : path.name ≠ "") (suffix : String) :
    (path.renamed suffix).name ≠ "" := by
  rw [name_renamed]
  intro empty
  exact stem_ne_empty named (String.append_eq_empty_iff.mp empty).1

theorem slash_not_mem_stem (clean : '/' ∉ name.toList) : '/' ∉ (splitName name).1.toList := by
  simp only [splitName]
  split
  · rw [String.toList_ofList, List.mem_reverse]
    intro member
    exact clean (List.mem_reverse.mp (List.mem_of_mem_drop member))
  · exact clean

theorem name_mem_parts (named : path.name ≠ "") : path.name ∈ path.parts := by
  rw [name] at named ⊢
  cases last : path.parts.getLast? with
  | none => exact absurd (by rw [last]; rfl) named
  | some part => exact List.mem_of_getLast? last

/-- The parts stay those of a text under another extension. -/
theorem IsSpelled.renamed (spelled : path.IsSpelled) (named : path.name ≠ "")
    (isExtension : IsExtension suffix) : (path.renamed suffix).IsSpelled := by
  intro part member
  rcases List.mem_append.mp member with above | last
  · exact spelled part (List.dropLast_subset _ above)
  · rw [List.mem_singleton.mp last]
    have noSlash : '/' ∉ ((splitName path.name).1 ++ suffix).toList := by
      rw [String.toList_append, List.mem_append]
      exact not_or.mpr ⟨slash_not_mem_stem (spelled _ (name_mem_parts named)).2,
        isExtension.noSlash⟩
    have long : 3 ≤ ((splitName path.name).1 ++ suffix).toList.length := by
      have ofStem := List.length_pos_iff.mpr (mt String.toList_eq_nil_iff.mp (stem_ne_empty named))
      obtain ⟨letters, shape, more, -, -⟩ := isExtension
      have ofLetters := List.length_pos_iff.mpr more
      rw [String.toList_append, List.length_append, shape, List.length_cons]
      omega
    exact ⟨(isName_of_length noSlash long).isPart, noSlash⟩

/-- The path lies below the base, part by part. -/
def IsWithin (path base : Path) : Prop := path.anchor = base.anchor ∧ base.parts <+: path.parts

instance (path base : Path) : Decidable (path.IsWithin base) :=
  inferInstanceAs (Decidable (_ ∧ _))

/-- The way below a base leads from the base back to the path. -/
theorem joinText_relativeTo (spelled : path.IsSpelled) (within : path.IsWithin base) :
    base.joinText ((path.relativeTo? base).getD path).toString = path := by
  obtain ⟨anchored, steps, whole⟩ := within
  have relative : path.relativeTo? base = some ⟨.here, steps⟩ := by
    rw [relativeTo?, ← whole, List.drop_left, if_pos ⟨anchored, by simp⟩]
  have spelledBelow : IsSpelled ⟨.here, steps⟩ := fun part member =>
    spelled part (whole ▸ List.mem_append_right base.parts member)
  rw [relative, Option.getD_some, joinText, spelledBelow.ofString_toString, join]
  simp only [whole, ← anchored]

end Path

namespace Tree

/-- No name of the tree is empty or holds a slash. -/
def IsSpelled (tree : Tree) : Prop :=
  ∀ location node, tree.get? location = some node →
    ∀ name ∈ location, name ≠ "" ∧ '/' ∉ name.toList

theorem isSpelled_of_nodes {tree : Tree}
    (each : ∀ entry ∈ tree.nodes, ∀ name ∈ entry.1, name ≠ "" ∧ '/' ∉ name.toList) :
    tree.IsSpelled := by
  intro location node found name member
  rw [get?, if_neg (List.ne_nil_of_mem member)] at found
  exact each _ (mem_of_look found) name member

end Tree

namespace Selection

variable {tree : Tree} {base path : Path} {source : SourceFile} {patterns : List String}

theorem exists_file_of_read (made : read tree base path = .ok source) :
    ∃ location contents, tree.locate [] true path = .ok location ∧
      tree.get? location = some (.file contents) := by
  unfold read at made
  split at made
  · cases made
  · rename_i bytes reads
    unfold Tree.read at reads
    split at reads
    · cases reads
    · split at reads
      · rename_i contents status
        obtain ⟨location, located, found⟩ := Tree.status_eq_ok.mp status
        exact ⟨location, contents, located, found⟩
      · cases reads
      · cases reads

/-- The root is no file, so the path of a file has parts. -/
theorem parts_ne_nil_of_read (made : read tree base path = .ok source) : path.parts ≠ [] := by
  intro root
  obtain ⟨location, contents, located, found⟩ := exists_file_of_read made
  have walked := (Tree.locate_eq_ok.mp located).2
  rw [root, Path.start, ite_self, Tree.walkSteps] at walked
  rw [← Except.ok.inj walked] at found
  cases found

/-- The parts of a path that is read are names of the tree, or steps up. -/
theorem isSpelled_of_read (spelled : tree.IsSpelled) (absolute : path.isAbsolute = true)
    (noPoint : "." ∉ path.parts) (made : read tree base path = .ok source) : path.IsSpelled := by
  obtain ⟨location, contents, located, found⟩ := exists_file_of_read made
  have steps := (Tree.walks_of_locate absolute located).forall_steps
    (fun step => step ≠ "" ∧ '/' ∉ step.toList) (by decide +kernel) (by decide +kernel) spelled
    found
  intro part member
  have notHere : part ≠ "." := fun here => noPoint (here ▸ member)
  exact ⟨Path.isPart_iff.mpr ⟨(steps part member).1, notHere⟩, (steps part member).2⟩

theorem exists_of_mem_readAll {paths : List Path}
    (member : source ∈ (scan.readAll tree base paths).1) :
    ∃ path ∈ paths, read tree base path = .ok source := by
  induction paths with
  | nil => cases member
  | cons path rest inductionHypothesis =>
      rw [scan.readAll] at member
      split at member
      · cases member
      · rename_i first made
        rcases List.mem_cons.mp member with rfl | later
        · exact ⟨path, List.mem_cons_self, made⟩
        · obtain ⟨other, isOther, madeOther⟩ := inductionHypothesis later
          exact ⟨other, List.mem_cons_of_mem path isOther, madeOther⟩

/-- A source that was read, be it the file of a path or one that patterns select. -/
inductive Reads (tree : Tree) (base : Path) : SourceFile → Prop where
  | file {path : Path} {source : SourceFile} (spelled : path.IsSpelled)
      (made : read tree base path = .ok source) : Reads tree base source
  | scanned {patterns : List String} {source : SourceFile}
      (member : source ∈ (scan tree base patterns).1) : Reads tree base source

/-- A source that was read has a spelled path with a name, and it still has its origin there. -/
theorem Reads.isSpelled (spelled : tree.IsSpelled) (absolute : base.isAbsolute = true)
    (reads : Reads tree base source) : source.path.IsSpelled ∧ source.path.name ≠ "" := by
  obtain ⟨path, spelledPath, made⟩ : ∃ path : Path, path.IsSpelled ∧
      read tree base path = .ok source := by
    cases reads with
    | file spelledPath made => exact ⟨_, spelledPath, made⟩
    | @scanned patterns _ member =>
        unfold scan at member
        split at member
        · cases member
        · rename_i paths selects
          obtain ⟨path, isSelected, made⟩ := exists_of_mem_readAll member
          obtain ⟨pattern, -, selected⟩ := ((expand_eq_ok selects).2.1 path).mp isSelected
          exact ⟨path, isSpelled_of_read spelled (selected.isAbsolute absolute)
            (selected.point_not_mem absolute) made, made⟩
  have filled := parts_ne_nil_of_read made
  obtain ⟨text, rfl⟩ := Compiler.exists_of_read made
  refine ⟨spelledPath, ?_⟩
  show path.name ≠ ""
  rw [Path.name, List.getLast?_eq_some_getLast filled, Option.getD_some]
  exact (Path.isPart_iff.mp (spelledPath _ (List.getLast_mem filled)).1).1

end Selection

namespace SourceFile

/-- A change of a source on its way. -/
inductive Change where
  | contents (text : String)
  | suffix (text : String)
  deriving DecidableEq, Repr

def Change.contents? : Change → Option String
  | .contents text => some text
  | .suffix _ => none

def Change.suffix? : Change → Option String
  | .contents _ => none
  | .suffix text => some text

def change (source : SourceFile) : Change → Except Path.SuffixFault SourceFile
  | .contents text => .ok (source.withContents text)
  | .suffix text => source.withSuffix text

/-- The changes are made one after another. -/
def changeAll (source : SourceFile) (changes : List Change) :
    Except Path.SuffixFault SourceFile := changes.foldlM change source

def lastContents? (changes : List Change) : Option String :=
  (changes.filterMap Change.contents?).getLast?

def lastSuffix? (changes : List Change) : Option String :=
  (changes.filterMap Change.suffix?).getLast?

/-- What changes leave of a source. The last contents and the last extension are all that is new. -/
def changed (source : SourceFile) (changes : List Change) : SourceFile where
  path := (lastSuffix? changes).elim source.path source.path.renamed
  base := source.base
  contents := (lastContents? changes).getD source.contents
  origin := source.origin

variable {source : SourceFile} {changes : List Change} {text : String}

section Steps

theorem changed_contents : source.changed (changes ++ [.contents text]) =
    (source.changed changes).withContents text := by
  simp [changed, lastContents?, lastSuffix?, withContents, Change.contents?, Change.suffix?]

theorem name_changed (named : source.path.name ≠ "") (changes : List Change) :
    (source.changed changes).path.name ≠ "" := by
  rw [changed]
  cases lastSuffix? changes with
  | none => exact named
  | some suffix => exact Path.name_renamed_ne_empty named suffix

theorem mem_of_lastSuffix? (isLast : lastSuffix? changes = some text) :
    .suffix text ∈ changes := by
  obtain ⟨change, member, isSuffix⟩ := List.mem_filterMap.mp (List.mem_of_getLast? isLast)
  cases change with
  | contents other => cases isSuffix
  | suffix other =>
      cases isSuffix
      exact member

/-- One change more. -/
theorem changed_suffix (named : source.path.name ≠ "")
    (simple : ∀ suffix, .suffix suffix ∈ changes → Path.IsExtension suffix) :
    source.changed (changes ++ [.suffix text]) =
      { source.changed changes with path := (source.changed changes).path.renamed text } := by
  have path : (source.changed changes).path.renamed text = source.path.renamed text := by
    rw [changed]
    cases last : lastSuffix? changes with
    | none => rfl
    | some suffix =>
        exact Path.renamed_renamed named (simple suffix (mem_of_lastSuffix? last)) text
  rw [path]
  simp [changed, lastContents?, lastSuffix?, Change.contents?, Change.suffix?]

end Steps

/-- The last changes decide, whatever came between and before them. -/
theorem changeAll_eq (named : source.path.name ≠ "")
    (simple : ∀ suffix, .suffix suffix ∈ changes → Path.IsExtension suffix) :
    source.changeAll changes = .ok (source.changed changes) := by
  induction changes using List.reverseRecOn with
  | nil => rfl
  | append_singleton before last inductionHypothesis =>
      have simpleBefore : ∀ suffix, .suffix suffix ∈ before → Path.IsExtension suffix :=
        fun suffix member => simple suffix (List.mem_append_left _ member)
      rw [changeAll, List.foldlM_append, ← changeAll, inductionHypothesis simpleBefore]
      show (source.changed before).changeAll [last] = _
      cases last with
      | contents text =>
          rw [changed_contents]
          rfl
      | suffix text =>
          have isExtension := simple text (List.mem_append_right _ List.mem_cons_self)
          rw [changed_suffix named simpleBefore]
          simp only [changeAll, List.foldlM_cons, List.foldlM_nil, change, withSuffix,
            Path.withSuffix_eq (name_changed named before) isExtension]
          rfl

/-- Changes of a source that was read leave its origin, its base and its directory as they were. The
contents are the last ones, and the path is the one that a single renaming makes of the first path.
Below the base the relative path leads back to it. -/
theorem last_changes_decide {tree : Tree} {base : Path} (spelled : tree.IsSpelled)
    (absolute : base.isAbsolute = true) (reads : Selection.Reads tree base source)
    (simple : ∀ suffix, .suffix suffix ∈ changes → Path.IsExtension suffix) :
    ∃ left, source.changeAll changes = .ok left ∧
      left.origin = source.origin ∧ left.base = source.base ∧
      left.path.parent = source.path.parent ∧
      left.contents = (lastContents? changes).getD source.contents ∧
      (lastSuffix? changes = none → left.path = source.path) ∧
      (∀ suffix, lastSuffix? changes = some suffix →
        source.path.withSuffix suffix = .ok left.path ∧
          suffix.toList <:+ left.path.name.toList ∧
          Path.splitName left.path.name = ((Path.splitName source.path.name).1, suffix)) ∧
      (left.path.IsWithin left.base → left.base.joinText left.relative = left.path) := by
  obtain ⟨spelledPath, named⟩ := reads.isSpelled spelled absolute
  refine ⟨source.changed changes, changeAll_eq named simple, rfl, rfl, ?_, rfl, ?_, ?_, ?_⟩
  · rw [changed]
    cases lastSuffix? changes with
    | none => rfl
    | some suffix => exact Path.parent_renamed source.path suffix
  · intro unnamed
    rw [changed, unnamed]
    rfl
  · intro suffix last
    have isExtension := simple suffix (mem_of_lastSuffix? last)
    have path : (source.changed changes).path = source.path.renamed suffix := by
      rw [changed, last]
      rfl
    rw [path, Path.name_renamed]
    refine ⟨Path.withSuffix_eq named isExtension, ?_, ?_⟩
    · rw [String.toList_append]
      exact List.suffix_append _ _
    · exact Path.splitName_append (Path.stem_ne_empty named) isExtension
  · apply Path.joinText_relativeTo
    rw [changed]
    cases last : lastSuffix? changes with
    | none => exact spelledPath
    | some suffix => exact spelledPath.renamed named (simple suffix (mem_of_lastSuffix? last))

/-- The name starts with a point, holds another one and ends with a third one. -/
def dottedTree : Tree :=
  ⟨[(["p"], .directory), (["p", "src"], .directory), (["p", "src", ".x.tar."], .file [120])]⟩

/-- The points of the name stay, and those of the extensions do not pile up. -/
theorem last_changes_decide_sample :
    let source : SourceFile := .ofPath ⟨.root, ["p", "src", ".x.tar."]⟩ ⟨.root, ["p"]⟩ "x"
    let changes : List Change := [.suffix ".js", .contents "y", .suffix ".css", .contents "z",
      .suffix ".js", .suffix ".css"]
    source ∈ (Selection.scan dottedTree ⟨.root, ["p"]⟩ ["src/.*"]).1 ∧
      ∃ left, source.changeAll changes = .ok left ∧ left.contents = "z" ∧
        left.path = ⟨.root, ["p", "src", ".x.tar..css"]⟩ ∧
        left.base.joinText left.relative = left.path := by
  intro source changes
  have spelled : dottedTree.IsSpelled := Tree.isSpelled_of_nodes (by decide +kernel)
  have scanned : source ∈ (Selection.scan dottedTree ⟨.root, ["p"]⟩ ["src/.*"]).1 := by
    decide +kernel
  have simple : ∀ suffix, .suffix suffix ∈ changes → Path.IsExtension suffix := by
    intro suffix member
    have known : suffix = Dialect.coffee.outputExtension ∨
        suffix = Dialect.sass.outputExtension := by
      show suffix = ".js" ∨ suffix = ".css"
      simp only [changes, List.mem_cons, Change.suffix.injEq, reduceCtorEq, List.not_mem_nil,
        or_false, false_or] at member
      tauto
    rcases known with rfl | rfl
    · exact Path.isExtension_outputExtension _
    · exact Path.isExtension_outputExtension _
  obtain ⟨left, made, -, based, -, contents, -, renamed, back⟩ :=
    last_changes_decide spelled rfl (.scanned scanned) simple
  have path : source.path.renamed ".css" = ⟨.root, ["p", "src", ".x.tar..css"]⟩ := by
    decide +kernel
  have isExtension := simple ".css" (by decide)
  have isPath : left.path = ⟨.root, ["p", "src", ".x.tar..css"]⟩ :=
    (Except.ok.inj ((renamed ".css" rfl).1.symm.trans
      (Path.withSuffix_eq (by decide +kernel) isExtension))).trans path
  refine ⟨scanned, left, made, contents, isPath, back ?_⟩
  rw [isPath, based]
  decide +kernel

end SourceFile

end AssetBundler
