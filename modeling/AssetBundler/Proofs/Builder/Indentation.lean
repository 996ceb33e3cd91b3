import AssetBundler.Capability.Adapters
import AssetBundler.Proofs.Builder.Bundle
import AssetBundler.Proofs.Selection.Endings

/-!
The syntax of style sheets. Two dialects share a library, which is told the syntax by the name of a
file and not by the dialect. The two agree on the files of a directory, unless they are searched
for by another extension.
-/

namespace AssetBundler

/-- Whether the syntax of a dialect is the indented one of its library. -/
def Dialect.indented? : Dialect → Option Bool
  | .sass => some true
  | .scss => some false
  | _ => none

namespace Capability

variable {installed : Assoc Library} {adapter : Adapter} {library : Library}

def sassAdapter : Adapter := ⟨"sass", "sass", "sass.compile", sassArguments⟩

/-- An adapter is registered if its library is installed. -/
def registerAdapter (installed : Assoc Library) (registry : Registry Capability)
    (adapter : Adapter) : Registry Capability :=
  match Assoc.find? installed adapter.library with
  | some library => registry.register adapter.capability (adapter.adapt library)
  | none => registry

theorem get_registerAdapter {name : String} (other : adapter.capability ≠ name)
    (registry : Registry Capability) :
    (registerAdapter installed registry adapter).get name = registry.get name := by
  rw [registerAdapter]
  split
  · rw [Registry.get_register, if_neg other]
  · rfl

theorem get_foldl_registerAdapter {name : String} {list : List Adapter}
    (others : ∀ adapter ∈ list, adapter.capability ≠ name) (registry : Registry Capability) :
    (list.foldl (registerAdapter installed) registry).get name = registry.get name := by
  induction list generalizing registry with
  | nil => rfl
  | cons first rest inductionHypothesis =>
      obtain ⟨isOther, later⟩ := List.forall_mem_cons.mp others
      rw [List.foldl_cons, inductionHypothesis later, get_registerAdapter isOther]

/-- An installed library serves the capability of its adapter. -/
theorem get_standardRegistry (isAdapter : adapter ∈ adapters)
    (isInstalled : Assoc.find? installed adapter.library = some library) :
    (standardRegistry installed).get adapter.capability = .ok (adapter.adapt library) := by
  have distinct : (adapters.map Adapter.capability).Nodup := by decide
  obtain ⟨before, after, shape⟩ := List.append_of_mem isAdapter
  have later : ∀ other ∈ after, other.capability ≠ adapter.capability := by
    rw [shape, List.map_append, List.map_cons] at distinct
    obtain ⟨-, tail, -⟩ := List.nodup_append.mp distinct
    intro other member same
    exact (List.nodup_cons.mp tail).1 (same ▸ List.mem_map_of_mem member)
  have registered : standardRegistry installed =
      adapters.foldl (registerAdapter installed)
        (Registry.register [] "commonjs" CommonJs.wrapper) := rfl
  rw [registered, shape, List.foldl_append, List.foldl_cons, get_foldl_registerAdapter later,
    registerAdapter, isInstalled]
  exact (Registry.get_register _ _ _ _).trans (if_pos rfl)

end Capability

namespace Compiler

variable {compiler : Compiler} {registry : Registry Capability} {library : Library}

/-- The part of a file that the library compiles in a given syntax. -/
def sheet (compiler : Compiler) (registry : Registry Capability) (library : Library) (tree : Tree)
    (base path : Path) (indented : Bool) : Except Failure SourceFile := do
  let source ← Selection.read tree base path
  let text ← (library ⟨"sass.compile", source.contents,
    [("include_paths", .array [.string (Path.directoryText path.toString)]),
      ("indented", .bool indented)]⟩).mapError Failure.capability
  let target ← (path.withSuffix ".css").mapError Failure.suffix
  compiler.finished registry { source with path := target, contents := text }

/-- A pattern of a directory whose files are searched for by the extension of the dialect. -/
def IsUsual (compiler : Compiler) (pattern : String) : Prop :=
  ∃ key, '\x00' ∉ key.toList ∧
    pattern = SelectorTable.directoryPattern key compiler.dialect.extension

variable {indented : Bool} (isSass : compiler.dialect.indented? = some indented)
include isSass

theorem capability?_of_isSass :
    compiler.dialect.capability? = some "sass" ∧ compiler.dialect.outputExtension = ".css" := by
  cases dialect : compiler.dialect <;> rw [dialect] at isSass <;>
    first | exact ⟨rfl, rfl⟩ | cases isSass

/-- The transform of a style sheet has no options. -/
theorem transformOptions_of_isSass : compiler.transformOptions = [] := by
  have notBabel : compiler.dialect.isBabel = false := by
    rw [Dialect.isBabel, (capability?_of_isSass isSass).1]
    decide
  have notCoffee : compiler.dialect ≠ .coffee := by
    intro coffee
    rw [coffee] at isSass
    cases isSass
  rw [transformOptions]
  split
  · simp [notBabel, notCoffee]
  · rfl

/-- The syntax is read off the path of the file. -/
theorem part_eq_sheet {installed : Assoc Library}
    (isInstalled : Assoc.find? installed "sass" = some library) (tree : Tree) (base path : Path) :
    compiler.part (Capability.standardRegistry installed) tree base path =
      compiler.sheet (Capability.standardRegistry installed) library tree base path
        (path.toString.endsWith ".sass") := by
  obtain ⟨capability, extension⟩ := capability?_of_isSass isSass
  have served : lookUp (Capability.standardRegistry installed) "sass" =
      .ok (Capability.sassAdapter.adapt library) := by
    have isAdapter : Capability.sassAdapter ∈ Capability.adapters := List.mem_cons_self
    have got : (Capability.standardRegistry installed).get "sass" =
        .ok (Capability.sassAdapter.adapt library) :=
      Capability.get_standardRegistry isAdapter isInstalled
    rw [lookUp, got]
  rw [part, sheet]
  cases read : Selection.read tree base path with
  | error failure => rfl
  | ok source =>
      obtain ⟨text, rfl⟩ := exists_of_read read
      have told : Capability.sassAdapter.adapt library text path.toString [] =
          library ⟨"sass.compile", text,
            [("include_paths", .array [.string (Path.directoryText path.toString)]),
              ("indented", .bool (path.toString.endsWith ".sass"))]⟩ := rfl
      simp only [bind, Except.bind, transformed, capability, applied, served, extension,
        transformOptions_of_isSass isSass, SourceFile.ofPath, told]
      cases library _ with
      | error fault => rfl
      | ok compiled => cases path.withSuffix ".css" <;> rfl

/-- A usual pattern selects files whose names tell their syntax. -/
theorem endsWith_of_isUsual {tree : Tree} {base path : Path} {pattern : String}
    (sound : tree.IsSound) (absolute : base.isAbsolute = true)
    (cleanBase : ∀ part ∈ base.parts, '\x00' ∉ part.toList) (usual : compiler.IsUsual pattern)
    (selects : Selection.Selects tree base pattern path) :
    path.toString.endsWith ".sass" = indented := by
  obtain ⟨key, cleanKey, rfl⟩ := usual
  have absolutePath := selects.isAbsolute absolute
  have extended (ending : String) (isEnding : Selection.IsEnding ending)
      (same : compiler.dialect.extension = ending) :
      path.parts ≠ [] ∧ ending.toList <:+ path.name.toList := by
    have ends := Selection.suffix_name_of_selects sound absolute cleanBase cleanKey isEnding
      (same ▸ selects)
    refine ⟨fun empty => ?_, ends⟩
    rw [Path.name, empty] at ends
    exact (isEnding.isName ends).1 rfl
  cases dialect : compiler.dialect with
  | sass =>
      obtain ⟨named, ends⟩ := extended ".sass" ⟨by decide, by decide, by decide, by decide⟩
        (by rw [dialect]; rfl)
      rw [dialect] at isSass
      cases isSass
      exact (Path.endsWith_toString_iff absolutePath named (by decide)).mpr ends
  | scss =>
      obtain ⟨named, ends⟩ := extended ".scss" ⟨by decide, by decide, by decide, by decide⟩
        (by rw [dialect]; rfl)
      rw [dialect] at isSass
      cases isSass
      rw [Bool.eq_false_iff, ne_eq, Path.endsWith_toString_iff absolutePath named (by decide)]
      intro other
      have same := List.suffix_of_suffix_length_le other ends (by decide)
      exact absurd (same.eq_of_length (by decide)) (by decide)
  | _ =>
      rw [dialect] at isSass
      cases isSass

end Compiler

namespace Builder

variable {builder : Builder} {installed : Assoc Library} {library : Library}

/-- The library is told that the syntax is indented exactly for files whose names end so. For the
files of a directory this is the syntax of the dialect. It may be the wrong one only for a file that
is selected by another pattern. -/
theorem indentation_by_name (equipment : builder.registry = Capability.standardRegistry installed)
    (isInstalled : Assoc.find? installed "sass" = some library) {workspace : Workspace}
    (sound : workspace.tree.IsSound) :
    let base := builder.sourceBase workspace.directory
    ((∀ name ∈ builder.neededCapabilities, builder.registry.has name = true) →
        (Action.run builder.compileSources workspace).1 = builder.parts workspace.tree base) ∧
      ∀ compiler ∈ builder.compilers, ∀ indented, compiler.dialect.indented? = some indented →
        (∀ path, compiler.part builder.registry workspace.tree base path =
          compiler.sheet builder.registry library workspace.tree base path
            (path.toString.endsWith ".sass")) ∧
        ∀ paths, Selection.expand workspace.tree base compiler.patterns = .ok paths →
          ∀ path ∈ paths, path.toString.endsWith ".sass" = indented ∨
            ∃ pattern ∈ compiler.patterns, ¬compiler.IsUsual pattern ∧
              Selection.Selects workspace.tree base pattern path := by
  intro base
  constructor
  · intro equipped
    obtain ⟨events, -, ran⟩ := observes_compileSources builder equipped workspace
    rw [ran]
    rfl
  · intro compiler member indented isSass
    rw [equipment]
    refine ⟨Compiler.part_eq_sheet isSass isInstalled workspace.tree base, ?_⟩
    intro paths selected path isSelected
    have absolute : base.isAbsolute = true := Path.isAbsolute_join _ _ rfl
    have cleanBase : ∀ part ∈ base.parts, '\x00' ∉ part.toList :=
      fun part => Path.null_not_mem (Path.holdsNull_normalize (Path.isAbsolute_join _ _ rfl))
    obtain ⟨-, members, -⟩ := Selection.expand_eq_ok selected
    obtain ⟨pattern, isPattern, selects⟩ := (members path).mp isSelected
    by_cases usual : compiler.IsUsual pattern
    · exact .inl (Compiler.endsWith_of_isUsual isSass sound absolute cleanBase usual selects)
    · exact .inr ⟨pattern, isPattern, usual, selects⟩

/-- A library that gives the name of the syntax that it is asked for. -/
def naming : Library := fun call =>
  match Assoc.find? call.arguments "indented" with
  | some (.bool true) => .ok "indented"
  | _ => .ok "plain"

/-- An indented style sheet with its extension in capitals, and one of the other dialect whose name
ends like an indented one. -/
def sheets : Builder where
  registry := Capability.standardRegistry [("sass", naming)]
  base := ⟨.root, ["p"]⟩
  runtime := ""
  verbose := false
  showsProgress := false
  compilers := [styleCompiler .sass "a.SASS" false, styleCompiler .scss "b.sass" false]

def sheetsWorkspace : Workspace where
  tree := ⟨[(["p"], .directory), (["p", "a.SASS"], .file [120]), (["p", "b.sass"], .file [121])]⟩
  directory := ["p"]

/-- The first one is mistaken because it was selected by its name. -/
theorem indentation_by_name_sample :
    (Action.run sheets.compileSources sheetsWorkspace).1 =
        sheets.parts sheetsWorkspace.tree ⟨.root, ["p"]⟩ ∧
      ∃ pattern ∈ ["a.SASS"], ¬(styleCompiler .sass "a.SASS" false).IsUsual pattern ∧
        Selection.Selects sheetsWorkspace.tree ⟨.root, ["p"]⟩ pattern
          ⟨.root, ["p", "a.SASS"]⟩ := by
  have sound : sheetsWorkspace.tree.IsSound := Tree.sound_of_nodes (by decide +kernel)
  have base : sheets.sourceBase sheetsWorkspace.directory = ⟨.root, ["p"]⟩ := by decide +kernel
  have selected : Selection.expand sheetsWorkspace.tree ⟨.root, ["p"]⟩
      (styleCompiler .sass "a.SASS" false).patterns = .ok [⟨.root, ["p", "a.SASS"]⟩] := by
    decide +kernel
  have equipment : sheets.registry = Capability.standardRegistry [("sass", naming)] := rfl
  have isInstalled : Assoc.find? [("sass", naming)] "sass" = some naming := rfl
  obtain ⟨compiles, each⟩ := indentation_by_name equipment isInstalled sound
  rw [base] at compiles each
  refine ⟨compiles (by decide +kernel), ?_⟩
  obtain ⟨-, fits⟩ := each _ List.mem_cons_self true rfl
  exact (fits _ selected _ List.mem_cons_self).resolve_left (by decide +kernel)

/-- Neither style sheet is compiled in the syntax of its dialect. -/
theorem indentation_mistaken :
    sheets.compilers.map (fun compiler => compiler.dialect.indented?) = [some true, some false] ∧
      (sheets.parts sheetsWorkspace.tree (sheets.sourceBase sheetsWorkspace.directory)).map
        (fun sources => sources.map SourceFile.contents) = .ok ["plain", "indented"] := by
  decide +kernel

end Builder

end AssetBundler
