import AssetBundler.Proofs.Compiler.Identifiers
import AssetBundler.Proofs.Compiler.Moved
import AssetBundler.Proofs.ModuleId.Files
import AssetBundler.Proofs.Selection.Files

/-!
Identifiers of files that are registered one by one. They are made of the namespace and the base
names of the files without their extensions, unless the key of one file is how the name of another
one ends.
-/

namespace AssetBundler

namespace ModuleId

/-- What is left of a name without its extension. -/
inductive HasStem : List Char → List Char → Prop where
  | extended {stem ending : List Char} (isExtension : IsExtension ending) :
      HasStem (stem ++ ending) stem
  | bare {name : List Char} (none : ∀ ending, IsExtension ending → ¬ ending <:+ name) :
      HasStem name name

namespace HasStem

variable {name stem other : List Char}

theorem unique (hasStem : HasStem name stem) (again : HasStem name other) : stem = other := by
  cases again with
  | @extended _ ending isExtension =>
      generalize whole : other ++ ending = name at hasStem
      cases hasStem with
      | extended isOther =>
          rw [← @dropExtension_append stem _ isOther, ← whole, dropExtension_append isExtension]
      | bare none =>
          exact absurd (whole ▸ List.suffix_append other ending) (none ending isExtension)
  | bare none =>
      cases hasStem with
      | extended isExtension => exact absurd (List.suffix_append stem _) (none _ isExtension)
      | bare => rfl

theorem dropExtension_eq (plain : '\n' ∉ name) (hasStem : HasStem name stem) :
    dropExtension name = stem := by
  cases hasStem with
  | extended isExtension => exact dropExtension_append isExtension
  | bare none => exact dropExtension_of_none plain none

end HasStem

/-- Only backslashes are read as another character. -/
theorem not_mem_of_slashed {text : String} {c : Char} (other : c ≠ '\\')
    (clean : c ∉ slashed text) : c ∉ text.toList := fun member =>
  clean (List.mem_map.mpr ⟨c, member, if_neg other⟩)

/-- The text before what stands below a base ends with a slash. -/
theorem getLast?_slashed_lead {base : Path} (absolute : base.isAbsolute = true) :
    (slashed base.lead).getLast? = some '/' := by
  rw [slashed, List.getLast?_map, Path.getLast?_lead absolute]
  rfl

end ModuleId

namespace Compiler

open ModuleId (HasStem IsShadowed afterFiles baseName normalizeNamespace slashed)
open Selection (IsBase NamesFile literalPath)

/-- A compiler whose selectors are files that exist. No two of them have one base name without its
extension. -/
structure BundlesFiles (compiler : Compiler) (tree : Tree) (base : Path) (keys : List String)
    (stem : String → String) : Prop where
  table : compiler.table = keys.foldl SelectorTable.addFile {}
  named : ∀ key ∈ keys, NamesFile key
  exist : ∀ key ∈ keys, tree.isFile [] (literalPath base key) = .ok true
  stems : ∀ key ∈ keys, HasStem (baseName (slashed key)) (stem key).toList
  distinct : ∀ key ∈ keys, ∀ other ∈ keys, stem key = stem other → key = other

/-- A key leads to a file below the base, and the path of the file is one line. -/
structure StaysWithin (base : Path) (key : String) : Prop where
  level : ".." ∉ Text.splitOn '/' key
  plain : '\n' ∉ (literalPath base key).toString.toList

theorem isShadowed_firsts {keys : List String} {key : String} :
    IsShadowed (SelectorTable.firsts keys) key ↔ IsShadowed keys key := by
  simp only [IsShadowed, SelectorTable.mem_firsts]

variable {compiler : Compiler} {tree : Tree} {base : Path} {keys : List String}
  {stem : String → String} {key other : String}

section Files

variable (bundles : compiler.BundlesFiles tree base keys stem)
include bundles

theorem BundlesFiles.haveNames : ModuleId.HaveNames (SelectorTable.firsts keys) := by
  intro key isKey other isOther same
  rw [SelectorTable.mem_firsts] at isKey isOther
  refine bundles.distinct key isKey other isOther (String.toList_inj.mp ?_)
  exact (bundles.stems key isKey).unique (same ▸ bundles.stems other isOther)

variable (isBase : IsBase base) (isKey : key ∈ keys) (within : StaysWithin base key)
include isBase isKey within

theorem BundlesFiles.slashed_path : slashed (literalPath base key).toString =
    slashed base.lead ++ slashed key := by
  rw [(bundles.named key isKey).toString_literalPath isBase within.level, ModuleId.slashed_append]

theorem BundlesFiles.plain_path : '\n' ∉ slashed base.lead ++ slashed key := by
  rw [← bundles.slashed_path isBase isKey within]
  exact ModuleId.newline_not_mem_slashed within.plain

/-- An identifier names the file whose base name is left of the path. -/
theorem BundlesFiles.ofPath_eq (isOther : other ∈ keys)
    (left : afterFiles (SelectorTable.firsts keys) (slashed base.lead ++ slashed key) =
      baseName (slashed other)) :
    ModuleId.ofPath (literalPath base key).toString compiler.table.entries compiler.scope =
      normalizeNamespace compiler.scope ++ stem other := by
  have plain := bundles.plain_path isBase isKey within
  have plainLeft : '\n' ∉ baseName (slashed other) := fun member =>
    plain ((ModuleId.afterFiles_settles plain).1.subset (left ▸ member))
  rw [ModuleId.ofPath, ModuleId.stripSelectors, bundles.table,
    SelectorTable.entries_foldl_addFile, bundles.slashed_path isBase isKey within,
    ← ModuleId.afterFiles, left, String.toList_ofList,
    (bundles.stems other isOther).dropExtension_eq plainLeft, String.ofList_toList]

theorem BundlesFiles.ofPath_of_not_shadowed (free : ¬ IsShadowed keys key) :
    ModuleId.ofPath (literalPath base key).toString compiler.table.entries compiler.scope =
      normalizeNamespace compiler.scope ++ stem key := by
  refine bundles.ofPath_eq isBase isKey within isKey ?_
  exact ModuleId.afterFiles_of_not_shadowed bundles.haveNames (SelectorTable.mem_firsts.mpr isKey)
    (ModuleId.getLast?_slashed_lead isBase.straight.absolute)
    (bundles.plain_path isBase isKey within) (mt isShadowed_firsts.mp free)

/-- A name that ends the base name of a file stays within the base as well. -/
theorem BundlesFiles.staysWithin_of_suffix (isOther : other ∈ keys) (isName : '/' ∉ slashed other)
    (ends : slashed other <:+ baseName (slashed key)) : StaysWithin base other := by
  have noSlash := ModuleId.not_mem_of_slashed (by decide) isName
  have level : ".." ∉ Text.splitOn '/' other := by
    rw [Text.splitOn_of_not_mem noSlash, List.mem_singleton]
    rintro rfl
    exact (bundles.named ".." isOther).named.2 (by decide +kernel)
  have plainKey := bundles.plain_path isBase isKey within
  refine ⟨level, ?_⟩
  rw [(bundles.named other isOther).toString_literalPath isBase level]
  refine ModuleId.not_mem_of_slashed (by decide) fun member => plainKey ?_
  rw [ModuleId.slashed_append] at member
  rcases List.mem_append.mp member with inLead | inOther
  · exact List.mem_append_left _ inLead
  · exact List.mem_append_right _
      ((ends.trans (ModuleId.baseName_suffix (slashed key))).subset inOther)

theorem BundlesFiles.ofPath_of_shadowed (shadowed : IsShadowed keys key) :
    ∃ other ∈ keys, other ≠ key ∧ StaysWithin base other ∧ ¬ IsShadowed keys other ∧
      ModuleId.ofPath (literalPath base key).toString compiler.table.entries compiler.scope =
        normalizeNamespace compiler.scope ++ stem other := by
  obtain ⟨other, isOther, apart, isName, ends, free, left⟩ :=
    ModuleId.afterFiles_of_shadowed bundles.haveNames (SelectorTable.mem_firsts.mpr isKey)
      (ModuleId.getLast?_slashed_lead isBase.straight.absolute)
      (bundles.plain_path isBase isKey within) (isShadowed_firsts.mpr shadowed)
  rw [SelectorTable.mem_firsts] at isOther
  rw [isShadowed_firsts] at free
  exact ⟨other, isOther, apart,
    bundles.staysWithin_of_suffix isBase isKey within isOther isName ends, free,
    bundles.ofPath_eq isBase isKey within isOther left⟩

end Files

section Streams

variable (bundles : compiler.BundlesFiles tree base keys stem) (isBase : IsBase base)
  (within : ∀ key ∈ keys, StaysWithin base key)
include bundles isBase within

/-- The files are selected in the order of their entries. -/
theorem BundlesFiles.expand_eq : Selection.expand tree base compiler.patterns =
    .ok (compiler.table.entries.map fun selector => literalPath base selector.key) := by
  have patterns : compiler.patterns = keys := by
    rw [Compiler.patterns, bundles.table, SelectorTable.foldl_addFile]
  rw [patterns, Selection.expand_files isBase bundles.named (fun key member =>
    (within key member).level) bundles.exist, bundles.table, SelectorTable.entries_foldl_addFile,
    List.map_map]
  rfl

/-- A stream emits the identifiers of the files. -/
theorem BundlesFiles.emits (free : ∀ key ∈ keys, ¬ IsShadowed keys key)
    {registry : Registry Capability} {prepared : PreparedCompiler}
    (ready : compiler.prepare registry = .ok prepared) :
    Stream.Emits tree base prepared (compiler.table.entries.map fun selector =>
      normalizeNamespace compiler.scope ++ stem selector.key) := by
  have entries : compiler.table.entries =
      (SelectorTable.firsts keys).map fun key => ⟨key, .file⟩ := by
    rw [bundles.table, SelectorTable.entries_foldl_addFile]
  have spelled : ∀ key ∈ SelectorTable.firsts keys,
      "/".intercalate (Selection.literalSteps key) = key := fun key member =>
    have isKey := SelectorTable.mem_firsts.mp member
    ((bundles.named key isKey).spelled (within key isKey).level).2
  have below : ∀ key ∈ SelectorTable.firsts keys,
      literalPath base key = base.below (Selection.literalSteps key) := fun key member =>
    have isKey := SelectorTable.mem_firsts.mp member
    Selection.literalPath_below (bundles.named key isKey).relative (within key isKey).level
      isBase.straight isBase.clean
  have selects := bundles.expand_eq isBase within
  rw [entries, List.map_map] at selects ⊢
  have emitted := @Stream.emits_of_selects compiler registry prepared base ready tree
    ((SelectorTable.firsts keys).map Selection.literalSteps)
    (fun location => normalizeNamespace compiler.scope ++ stem ("/".intercalate location))
    (by
      rw [selects, List.map_map]
      exact congrArg Except.ok (List.map_congr_left below))
    (by
      intro location member
      obtain ⟨key, isFirst, rfl⟩ := List.mem_map.mp member
      have isKey := SelectorTable.mem_firsts.mp isFirst
      rw [← below key isFirst, spelled key isFirst]
      exact bundles.ofPath_of_not_shadowed isBase isKey (within key isKey) (free key isKey))
  rw [List.map_map] at emitted
  rwa [List.map_congr_left fun key member => ?_] at emitted
  simp only [Function.comp_apply, spelled key member]

end Streams

/-- A file that is registered below the base is known by the namespace and its base name without
the extension, exactly when no other key is how its base name ends. Otherwise it is known as another
one of the files. Where no file takes the name of another one, a stream emits the identifiers in the
order of the entries, and they are distinct. -/
theorem moduleId_of_files {name : String}
    (named : compiler.scope = if name = "" then "" else normalizeNamespace name)
    (isBase : IsBase base) (bundles : compiler.BundlesFiles tree base keys stem) :
    let identifier (key : String) := normalizeNamespace name ++ stem key
    (∀ key ∈ keys, StaysWithin base key → ∀ source : SourceFile,
      source.origin = literalPath base key →
        (compiler.moduleId source = identifier key ↔ ¬ IsShadowed keys key) ∧
        (IsShadowed keys key → ∃ other ∈ keys, other ≠ key ∧ StaysWithin base other ∧
          ¬ IsShadowed keys other ∧ compiler.moduleId source = identifier other)) ∧
      ((∀ key ∈ keys, StaysWithin base key) → (∀ key ∈ keys, ¬ IsShadowed keys key) →
        let identifiers := compiler.table.entries.map fun selector => identifier selector.key
        identifiers.Nodup ∧
          Selection.expand tree base compiler.patterns =
            .ok (compiler.table.entries.map fun selector => literalPath base selector.key) ∧
          ∀ registry prepared, compiler.prepare registry = .ok prepared →
            Stream.Emits tree base prepared identifiers) := by
  intro identifier
  have scope := normalizeNamespace_scope named
  refine ⟨fun key isKey within source path => ?_, fun within free => ⟨?_, ?_, ?_⟩⟩
  · have shadows (shadowed : IsShadowed keys key) : ∃ other ∈ keys, other ≠ key ∧
        StaysWithin base other ∧ ¬ IsShadowed keys other ∧
          compiler.moduleId source = identifier other := by
      have taken := bundles.ofPath_of_shadowed isBase isKey within shadowed
      rwa [← path, scope] at taken
    refine ⟨⟨fun own shadowed => ?_, fun free => ?_⟩, shadows⟩
    · obtain ⟨other, isOther, apart, -, -, taken⟩ := shadows shadowed
      have same := String.append_right_inj _ |>.mp (taken.symm.trans own)
      exact apart (bundles.distinct other isOther key isKey same)
    · rw [moduleId, path, bundles.ofPath_of_not_shadowed isBase isKey within free, scope]
  · rw [bundles.table, SelectorTable.entries_foldl_addFile, List.map_map]
    refine (SelectorTable.nodup_firsts keys).map_on fun key isKey other isOther same => ?_
    rw [SelectorTable.mem_firsts] at isKey isOther
    exact bundles.distinct key isKey other isOther (String.append_right_inj _ |>.mp same)
  · exact bundles.expand_eq isBase within
  · intro registry prepared ready
    have emits := bundles.emits isBase within free ready
    rwa [scope] at emits

/-- A compiler that wraps registered scripts as modules. -/
def registering (keys : List String) : Compiler :=
  { Compiler.create .js false with
    table := keys.foldl SelectorTable.addFile {}
    scope := "ns/" }

def preparedRegistering (keys : List String) : PreparedCompiler :=
  ⟨registering keys, none, some ("commonjs", wrap)⟩

/-- A directory with another one, both with scripts. -/
def filesTree (base : Location) : Tree :=
  ⟨((base ++ ["src"]).inits.tail.map fun above => (above, Node.directory)) ++
    [["a.js"], ["xa.js"], ["src", "a.js"], ["src", "Main.min.js"]].map fun location =>
      (base ++ location, .file [120])⟩

/-- The identifiers that a stream over the tree gives. -/
def registeredFrom (base : Location) (keys : List String) : Option (List String) :=
  let stream := Stream.drain ⟨.root, base⟩ [preparedRegistering keys]
  (Action.run stream ⟨filesTree base, [], []⟩).1.toOption.map
    (List.map (registering keys).moduleId)

/-- The base name of a script without its extension. -/
def scriptStem (key : String) : String :=
  String.ofList ((baseName (slashed key)).dropLast.dropLast.dropLast)

/-- Existing scripts with different names are a bundle of files. -/
theorem bundlesFiles_registering {base : Location} {keys : List String}
    (each : ∀ key ∈ keys, Path.anchorOf key.toList = .here ∧
      (Path.ofString key).normalize.toString = key ∧ (Path.ofString key).name ≠ "" ∧
      (Path.ofString key).name ≠ ".." ∧
      (filesTree base).isFile [] (literalPath ⟨.root, base⟩ key) = .ok true ∧
      baseName (slashed key) = (scriptStem key).toList ++ ".js".toList)
    (distinct : ∀ key ∈ keys, ∀ other ∈ keys, scriptStem key = scriptStem other → key = other) :
    (registering keys).BundlesFiles (filesTree base) ⟨.root, base⟩ keys scriptStem := by
  have letters : "js".toList.all ModuleId.isExtensionChar = true := by decide +kernel
  refine ⟨rfl, fun key isKey => ?_, fun key isKey => ?_, fun key isKey => ?_, distinct⟩
  all_goals obtain ⟨relative, normal, filled, notUp, isFile, script⟩ := each key isKey
  · exact ⟨relative, normal, filled, notUp⟩
  · exact isFile
  · rw [script]
    exact .extended ⟨"js".toList, by decide, by decide, List.all_eq_true.mp letters⟩

theorem moduleId_of_files_sample :
    let keys := ["xa.js", "src/a.js", "src/Main.min.js", "xa.js"]
    (registering keys).BundlesFiles (filesTree ["p"]) ⟨.root, ["p"]⟩ keys scriptStem ∧
      (registering keys).moduleId (SourceFile.ofPath ⟨.root, ["p", "src", "a.js"]⟩ ⟨.root, ["p"]⟩
        "") = "ns/a" ∧
      Stream.Emits (filesTree ["p"]) ⟨.root, ["p"]⟩ (preparedRegistering keys)
        ["ns/xa", "ns/a", "ns/Main.min"] := by
  intro keys
  have bundles : (registering keys).BundlesFiles (filesTree ["p"]) ⟨.root, ["p"]⟩ keys
      scriptStem := bundlesFiles_registering (by decide +kernel) (by decide +kernel)
  have straight : Path.IsStraight ⟨.root, ["p"]⟩ :=
    ⟨rfl, by unfold Path.IsPlain; decide +kernel⟩
  have lines : ∀ key ∈ keys, ".." ∉ Text.splitOn '/' key ∧
      '\n' ∉ (literalPath ⟨.root, ["p"]⟩ key).toString.toList := by decide +kernel
  have within : ∀ key ∈ keys, StaysWithin ⟨.root, ["p"]⟩ key := fun key isKey =>
    ⟨(lines key isKey).1, (lines key isKey).2⟩
  have free : ∀ key ∈ keys, ¬ IsShadowed keys key := by decide +kernel
  obtain ⟨each, whole⟩ := @moduleId_of_files (registering keys) (filesTree ["p"]) ⟨.root, ["p"]⟩
    keys scriptStem "ns" (by decide +kernel) ⟨straight, by decide +kernel⟩ bundles
  refine ⟨bundles, ?_, ?_⟩
  · have isKey : "src/a.js" ∈ keys := by decide
    rw [(each "src/a.js" isKey (within _ isKey) _ (by decide +kernel)).1.mpr (free _ isKey)]
    decide +kernel
  · have identifiers : ((registering keys).table.entries.map fun selector =>
        normalizeNamespace "ns" ++ scriptStem selector.key) =
          ["ns/xa", "ns/a", "ns/Main.min"] := by decide +kernel
    rw [← identifiers]
    exact (whole within free).2.2 [("commonjs", wrap)] (preparedRegistering keys) rfl

/-- A key is also found where a longer name ends with it. A key that steps up is not found at all,
and no key is found across a line feed. -/
theorem files_share_identifier :
    ((registering ["a.js", "xa.js"]).BundlesFiles (filesTree ["p"]) ⟨.root, ["p"]⟩
        ["a.js", "xa.js"] scriptStem ∧
      registeredFrom ["p"] ["a.js", "xa.js"] = some ["ns/a", "ns/a"]) ∧
    ((registering ["../p/a.js"]).BundlesFiles (filesTree ["p"]) ⟨.root, ["p"]⟩ ["../p/a.js"]
        scriptStem ∧
      registeredFrom ["p"] ["../p/a.js"] = some ["ns//p/a"]) ∧
    ((registering ["a.js"]).BundlesFiles (filesTree ["p", "n\nb"]) ⟨.root, ["p", "n\nb"]⟩ ["a.js"]
        scriptStem ∧
      registeredFrom ["p", "n\nb"] ["a.js"] = some ["ns//p/n\na"]) := by
  refine ⟨⟨bundlesFiles_registering ?_ ?_, ?_⟩, ⟨bundlesFiles_registering ?_ ?_, ?_⟩,
    bundlesFiles_registering ?_ ?_, ?_⟩
  all_goals decide +kernel

end Compiler

end AssetBundler
