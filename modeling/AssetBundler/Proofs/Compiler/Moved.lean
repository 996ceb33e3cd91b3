import AssetBundler.Proofs.Builder.Bundle
import AssetBundler.Proofs.Compiler.Pulling
import AssetBundler.Proofs.ModuleId.Stripping
import AssetBundler.Proofs.Selection.Moved

/-!
Identifiers of the modules of a base that has moved. They stay the same when the selectors free each
path of the text of the base, and then they are those of the paths below the base.
-/

namespace AssetBundler

open AssetBundler.Action

namespace ModuleId

theorem slashed_append (text rest : String) :
    slashed (text ++ rest) = slashed text ++ slashed rest := by
  simp [slashed, String.toList_append]

/-- An identifier does not depend on the text of a base that the selectors free it of. -/
theorem ofPath_below {base : Path} (absolute : base.isAbsolute = true) {location : Location}
    (deeper : location ≠ []) {selectors : List Selector} (scope : String)
    (plain : '\n' ∉ (base.below location).toString.toList)
    (frees : Frees (slashed base.lead) (slashed ("/".intercalate location)) selectors) :
    ofPath (base.below location).toString selectors scope =
      ofPath ("/".intercalate location) selectors scope := by
  have divided := Path.toString_below absolute deeper
  have plainDivided := newline_not_mem_slashed plain
  rw [divided, slashed_append] at plainDivided
  rw [ofPath, ofPath, stripSelectors, stripSelectors, divided, slashed_append,
    foldl_stripSelector_append plainDivided frees]

end ModuleId

namespace Stream

variable {compiler : Compiler} {registry : Registry Capability} {prepared : PreparedCompiler}
  {base : Path} {workspace left : Workspace} {sources : List SourceFile}

/-- A stream gives files one after the other. It may end or fail behind them, or give more. -/
inductive Gives (base : Path) : Cursor → Workspace → List SourceFile → Prop
  | none {cursor : Cursor} {workspace : Workspace} : Gives base cursor workspace []
  | more {cursor later : Cursor} {workspace reached : Workspace} {source : SourceFile}
      {sources : List SourceFile}
      (pulled : run (cursor.next base) workspace = (.ok (some (source, later)), reached))
      (rest : Gives base later reached sources) : Gives base cursor workspace (source :: sources)

/-- A compiled file has the path that it was selected by for its origin, and no file has changed. -/
theorem origin_of_compile (ready : compiler.prepare registry = .ok prepared) {path : Path}
    {source : SourceFile}
    (compiled : run (prepared.compile base path) workspace = (.ok source, left)) :
    source.origin = path ∧ left.tree = workspace.tree := by
  obtain ⟨events, -, ran⟩ := Compiler.observes_compile ready base path workspace
  obtain ⟨made, rest⟩ := Prod.mk.inj (ran.symm.trans compiled)
  exact ⟨Compiler.origin_part made, by rw [← rest]⟩

theorem origins_within (ready : compiler.prepare registry = .ok prepared) {paths : List Path}
    (given : Gives base (.within prepared paths []) workspace sources) :
    sources.map SourceFile.origin <+: paths := by
  induction paths generalizing workspace sources with
  | nil =>
      cases given with
      | none => exact List.nil_prefix
      | more pulled rest => cases pulled
  | cons path paths inductionHypothesis =>
      cases given with
      | none => exact List.nil_prefix
      | more pulled rest =>
          simp only [Cursor.next, run_bind] at pulled
          split at pulled
          · rename_i compiled
            cases pulled
            rw [List.map_cons, (origin_of_compile ready compiled).1, List.cons_prefix_cons]
            exact ⟨rfl, inductionHypothesis rest⟩
          · cases pulled

/-- A stream gives the first of the files that its compiler selects. -/
theorem origins_given (ready : compiler.prepare registry = .ok prepared)
    (given : Gives base (.between [prepared]) workspace sources) :
    sources = [] ∨ ∃ paths, Selection.expand workspace.tree base compiler.patterns = .ok paths ∧
      sources.map SourceFile.origin <+: paths := by
  have own : prepared.compiler = compiler := by
    obtain ⟨transform, post, -, -, rfl⟩ := Compiler.prepare_eq_ok ready
    rfl
  cases given with
  | none => exact Or.inl rfl
  | more pulled rest =>
      right
      simp only [Cursor.next, openNext, run_bind, own] at pulled
      obtain ⟨events, -, ran⟩ := Compiler.observes_expand base compiler.patterns workspace
      simp only [ran] at pulled
      cases expanded : Selection.expand workspace.tree base compiler.patterns with
      | error failure =>
          rw [expanded] at pulled
          cases pulled
      | ok paths =>
          rw [expanded] at pulled
          refine ⟨paths, rfl, ?_⟩
          cases paths with
          | nil => cases pulled
          | cons path paths =>
              simp only [run_bind] at pulled
              split at pulled
              · rename_i compiled
                cases pulled
                rw [List.map_cons, (origin_of_compile ready compiled).1, List.cons_prefix_cons]
                exact ⟨rfl, origins_within ready rest⟩
              · cases pulled

/-- A stream that ends has given all files that its compiler selects. -/
theorem origins_drained (ready : compiler.prepare registry = .ok prepared)
    (drained : Drains base (.between [prepared]) workspace (.ok sources) left) :
    Selection.expand workspace.tree base compiler.patterns =
      .ok (sources.map SourceFile.origin) := by
  have readyAll : ([compiler].mapM fun compiler => compiler.prepare registry) = .ok [prepared] := by
    simp [ready, bind, Except.bind, pure, Except.pure]
  obtain ⟨events, -, ran⟩ := observes_drain readyAll base workspace
  rw [drains_iff, ← drain_eq_eagerly, ran] at drained
  obtain ⟨groups, each, flat⟩ := Outcome.bind_eq_ok.mp (congrArg Prod.fst drained)
  obtain ⟨parts, made, same⟩ := Outcome.bind_eq_ok.mp each
  cases same
  cases flat
  rw [List.reverse_singleton, List.flatten_singleton]
  exact Compiler.expand_of_parts made

/-- A stream gives files with these identifiers, and all of them when it ends. -/
def Emits (tree : Tree) (base : Path) (prepared : PreparedCompiler) (identifiers : List String) :
    Prop :=
  ∀ workspace : Workspace, workspace.tree = tree →
    (∀ sources, Gives base (.between [prepared]) workspace sources →
      sources.map prepared.compiler.moduleId <+: identifiers) ∧
    ∀ sources left, Drains base (.between [prepared]) workspace (.ok sources) left →
      sources.map prepared.compiler.moduleId = identifiers

theorem emits_of_refused (ready : compiler.prepare registry = .ok prepared) {tree : Tree}
    {failure : Failure}
    (refused : Selection.expand tree base compiler.patterns = .error failure)
    (identifiers : List String) : Emits tree base prepared identifiers := by
  rintro workspace rfl
  constructor
  · intro sources given
    rcases origins_given ready given with rfl | ⟨paths, selects, -⟩
    · exact List.nil_prefix
    · cases refused.symm.trans selects
  · intro sources left drained
    cases refused.symm.trans (origins_drained ready drained)

/-- A stream emits the identifiers of the paths that its compiler selects. -/
theorem emits_of_selects (ready : compiler.prepare registry = .ok prepared) {tree : Tree}
    {locations : List Location} {identifier : Location → String}
    (selects : Selection.expand tree base compiler.patterns = .ok (locations.map base.below))
    (identified : ∀ location ∈ locations, ModuleId.ofPath (base.below location).toString
      compiler.table.entries compiler.scope = identifier location) :
    Emits tree base prepared (locations.map identifier) := by
  obtain ⟨transform, post, -, -, rfl⟩ := Compiler.prepare_eq_ok ready
  have whole (sources : List SourceFile) : sources.map compiler.moduleId =
      (sources.map SourceFile.origin).map fun origin =>
        ModuleId.ofPath origin.toString compiler.table.entries compiler.scope := by
    rw [List.map_map]
    rfl
  have all : (locations.map base.below).map (fun origin =>
      ModuleId.ofPath origin.toString compiler.table.entries compiler.scope) =
        locations.map identifier := by
    rw [List.map_map]
    exact List.map_congr_left identified
  rintro workspace rfl
  constructor
  · intro sources given
    rw [whole]
    rcases origins_given ready given with rfl | ⟨paths, selected, start⟩
    · exact List.nil_prefix
    · cases selects.symm.trans selected
      rw [← all]
      exact start.map _
  · intro sources left drained
    have ends := Except.ok.inj (selects.symm.trans (origins_drained ready drained))
    rw [whole, ← ends, all]

end Stream

namespace Compiler

/-- A base from which a compiler selects by patterns that stay below it, and by selectors that free
each file of the text of the base. -/
structure FreesBelow (compiler : Compiler) (tree : Tree) (base : Path) (spare : Nat) : Prop where
  site : tree.IsSite base spare
  stay : ∀ pattern ∈ compiler.patterns, Selection.StaysBelow spare pattern
  plain : ∀ paths, Selection.expand tree base compiler.patterns = .ok paths →
    ∀ path ∈ paths, '\n' ∉ path.toString.toList
  frees : ∀ paths, Selection.expand tree base compiler.patterns = .ok paths →
    ∀ location, base.below location ∈ paths →
      ModuleId.Frees (ModuleId.slashed base.lead) (ModuleId.slashed ("/".intercalate location))
        compiler.table.entries

/-- The identifier of a module by its path below the base. -/
def identifierBelow (compiler : Compiler) (location : Location) : String :=
  ModuleId.ofPath ("/".intercalate location) compiler.table.entries compiler.scope

variable {compiler : Compiler} {tree other : Tree} {base otherBase : Path} {spare : Nat}
  {registry otherRegistry : Registry Capability} {prepared otherPrepared : PreparedCompiler}

namespace FreesBelow

variable (here : compiler.FreesBelow tree base spare)
include here

/-- Whatever is selected below a base is a list of files below it. -/
theorem exists_locations {paths : List Path}
    (selects : Selection.expand tree base compiler.patterns = .ok paths) :
    ∃ locations : List Location, paths = locations.map base.below ∧
      ∀ location ∈ locations, ∃ contents,
        tree.get? (base.parts ++ location) = some (.file contents) := by
  obtain ⟨locations, whole, -, areFiles⟩ := Selection.expand_moved here.site here.site
    (fun _ => rfl) here.stay selects selects
  exact ⟨locations, whole, areFiles⟩

theorem emits (ready : compiler.prepare registry = .ok prepared) {locations : List Location}
    (selected : ∀ paths, Selection.expand tree base compiler.patterns = .ok paths →
      paths = locations.map base.below) :
    Stream.Emits tree base prepared (locations.map compiler.identifierBelow) := by
  cases selects : Selection.expand tree base compiler.patterns with
  | error failure => exact Stream.emits_of_refused ready selects _
  | ok paths =>
      obtain rfl := selected paths selects
      obtain ⟨own, whole, areFiles⟩ := here.exists_locations selects
      obtain rfl := List.map_injective_iff.mpr base.below_injective whole
      refine Stream.emits_of_selects ready selects fun location member => ?_
      have isSelected : base.below location ∈ locations.map base.below :=
        List.mem_map_of_mem member
      have deeper : location ≠ [] := by
        rintro rfl
        obtain ⟨contents, isFile⟩ := areFiles [] member
        rw [List.append_nil, here.site.directory] at isFile
        cases isFile
      exact ModuleId.ofPath_below here.site.straight.absolute deeper compiler.scope
        (here.plain _ selects _ isSelected) (here.frees _ selects location isSelected)

/-- A list of files below both bases serves for both selections. -/
theorem exists_common (there : compiler.FreesBelow other otherBase spare)
    (same : tree.SameBelow other base.parts otherBase.parts) :
    ∃ locations : List Location,
      (∀ paths, Selection.expand tree base compiler.patterns = .ok paths →
        paths = locations.map base.below) ∧
      ∀ paths, Selection.expand other otherBase compiler.patterns = .ok paths →
        paths = locations.map otherBase.below := by
  cases selects : Selection.expand tree base compiler.patterns with
  | error failure =>
      cases otherSelects : Selection.expand other otherBase compiler.patterns with
      | error otherFailure => exact ⟨[], nofun, nofun⟩
      | ok others =>
          obtain ⟨locations, rfl, -⟩ := there.exists_locations otherSelects
          exact ⟨locations, nofun, fun paths same => (Except.ok.inj same).symm⟩
  | ok paths =>
      cases otherSelects : Selection.expand other otherBase compiler.patterns with
      | error otherFailure =>
          obtain ⟨locations, rfl, -⟩ := here.exists_locations selects
          exact ⟨locations, fun paths same => (Except.ok.inj same).symm, nofun⟩
      | ok others =>
          obtain ⟨locations, rfl, rfl, -⟩ :=
            Selection.expand_moved here.site there.site same here.stay selects otherSelects
          exact ⟨locations, fun paths same => (Except.ok.inj same).symm,
            fun paths same => (Except.ok.inj same).symm⟩

end FreesBelow

/-- Two bases with the same files below them emit the same identifiers, which are those of the paths
below the base. -/
theorem identifiers_moved (ready : compiler.prepare registry = .ok prepared)
    (otherReady : compiler.prepare otherRegistry = .ok otherPrepared)
    (here : compiler.FreesBelow tree base spare)
    (there : compiler.FreesBelow other otherBase spare)
    (same : tree.SameBelow other base.parts otherBase.parts) :
    ∃ locations : List Location,
      (∀ paths, Selection.expand tree base compiler.patterns = .ok paths →
        paths = locations.map base.below) ∧
      (∀ paths, Selection.expand other otherBase compiler.patterns = .ok paths →
        paths = locations.map otherBase.below) ∧
      Stream.Emits tree base prepared (locations.map compiler.identifierBelow) ∧
      Stream.Emits other otherBase otherPrepared (locations.map compiler.identifierBelow) := by
  obtain ⟨locations, selected, otherSelected⟩ := here.exists_common there same
  exact ⟨locations, selected, otherSelected, here.emits ready selected,
    there.emits otherReady otherSelected⟩

/-- A base frees a compiler when each file below it does. -/
theorem freesBelow_of_nodes (site : tree.IsSite base spare)
    (stay : ∀ pattern ∈ compiler.patterns, Selection.StaysBelow spare pattern)
    (each : ∀ entry ∈ tree.nodes, base.parts <+: entry.1 →
      '\n' ∉ (Path.toString ⟨base.anchor, entry.1⟩).toList ∧
        (Tree.isFileNode entry.2 = true → ModuleId.Frees (ModuleId.slashed base.lead)
          (ModuleId.slashed ("/".intercalate (entry.1.drop base.parts.length)))
          compiler.table.entries)) : compiler.FreesBelow tree base spare := by
  have files {paths : List Path}
      (selects : Selection.expand tree base compiler.patterns = .ok paths) {location : Location}
      (member : base.below location ∈ paths) :
      ∃ contents, (base.parts ++ location, Node.file contents) ∈ tree.nodes := by
    obtain ⟨locations, rfl, -, areFiles⟩ :=
      Selection.expand_moved site site (fun _ => rfl) stay selects selects
    obtain ⟨own, isOwn, same⟩ := List.mem_map.mp member
    obtain rfl := base.below_injective same
    obtain ⟨contents, isFile⟩ := areFiles own isOwn
    refine ⟨contents, ?_⟩
    rw [Tree.get?] at isFile
    split at isFile
    · cases isFile
    · exact Tree.mem_of_look isFile
  refine ⟨site, stay, ?_, ?_⟩
  · intro paths selects path member
    obtain ⟨locations, rfl, -, -⟩ :=
      Selection.expand_moved site site (fun _ => rfl) stay selects selects
    obtain ⟨location, -, rfl⟩ := List.mem_map.mp member
    obtain ⟨contents, stored⟩ := files selects member
    exact (each _ stored (List.prefix_append _ _)).1
  · intro paths selects location member
    obtain ⟨contents, stored⟩ := files selects member
    have frees := (each _ stored (List.prefix_append _ _)).2 rfl
    rwa [List.drop_left] at frees

/-- A directory with one script below it. -/
def scriptTree (base : Location) : Tree :=
  ⟨((base ++ ["src", "k"]).inits.tail.map fun above => (above, Node.directory)) ++
    [(base ++ ["src", "k", "x.js"], .file [120])]⟩

/-- A wrapper that shows the identifier of a module. -/
def wrap : Capability := fun contents subject _ => .ok (subject ++ ":" ++ contents)

/-- A compiler that wraps the scripts of some directories as modules. -/
def wrapping (directories : List String) : Compiler :=
  { Compiler.create .js false with
    table := ⟨directories.map fun directory => (directory, .directory),
      directories.map fun directory => SelectorTable.directoryPattern directory ".js"⟩
    scope := "app/" }

def preparedWrapping (directories : List String) : PreparedCompiler :=
  ⟨wrapping directories, none, some ("commonjs", wrap)⟩

theorem prepare_wrapping (directories : List String) :
    (wrapping directories).prepare [("commonjs", wrap)] = .ok (preparedWrapping directories) := rfl

/-- The identifiers that a stream over the tree with one script gives. -/
def wrappedFrom (base : Location) (directories : List String) : Option (List String) :=
  let stream := Stream.drain ⟨.root, base⟩ [preparedWrapping directories]
  (run stream ⟨scriptTree base, [], []⟩).1.toOption.map (List.map (wrapping directories).moduleId)

theorem sameBelow_scriptTree :
    (scriptTree ["a"]).SameBelow (scriptTree ["b", "c"]) ["a"] ["b", "c"] := by
  intro location
  simp [scriptTree, Tree.get?, Tree.look]

theorem freesBelow_scriptTree {base : Location} (either : base = ["a"] ∨ base = ["b", "c"]) :
    (wrapping ["src/"]).FreesBelow (scriptTree base) ⟨.root, base⟩ 0 := by
  have plain : Path.IsPlain ⟨.root, base⟩ := by
    unfold Path.IsPlain
    rcases either with rfl | rfl <;> decide +kernel
  have site : (scriptTree base).IsSite ⟨.root, base⟩ 0 := by
    refine Tree.isSite_of_nodes (Tree.sound_of_nodes ?_) (Tree.isLinkFree_of_nodes ?_)
      ⟨rfl, plain⟩ ?_ (by decide) ?_
    all_goals rcases either with rfl | rfl <;> decide +kernel
  refine freesBelow_of_nodes site ?_ ?_
  · exact List.forall_mem_singleton.mpr ⟨by decide +kernel, by decide +kernel, by decide +kernel⟩
  · rcases either with rfl | rfl <;> decide +kernel

theorem identifiers_moved_sample :
    wrappedFrom ["a"] ["src/"] = some ["app/k/x"] ∧ ∃ locations : List Location,
      (∀ paths, Selection.expand (scriptTree ["a"]) ⟨.root, ["a"]⟩ (wrapping ["src/"]).patterns =
          .ok paths → paths = locations.map (Path.below ⟨.root, ["a"]⟩)) ∧
      (∀ paths, Selection.expand (scriptTree ["b", "c"]) ⟨.root, ["b", "c"]⟩
          (wrapping ["src/"]).patterns = .ok paths →
        paths = locations.map (Path.below ⟨.root, ["b", "c"]⟩)) ∧
      Stream.Emits (scriptTree ["a"]) ⟨.root, ["a"]⟩ (preparedWrapping ["src/"])
        (locations.map (wrapping ["src/"]).identifierBelow) ∧
      Stream.Emits (scriptTree ["b", "c"]) ⟨.root, ["b", "c"]⟩ (preparedWrapping ["src/"])
        (locations.map (wrapping ["src/"]).identifierBelow) :=
  ⟨by decide +kernel, identifiers_moved (prepare_wrapping ["src/"]) (prepare_wrapping ["src/"])
    (freesBelow_scriptTree (Or.inl rfl)) (freesBelow_scriptTree (Or.inr rfl)) sameBelow_scriptTree⟩

/-- A key that no path has leaves the base in an identifier. So do a key that reaches from the base
into the path, a line feed in the base, and a pattern that takes a step up. -/
theorem identifiers_leak :
    ((scriptTree ["a"]).SameBelow (scriptTree ["b", "c"]) ["a"] ["b", "c"] ∧
        (scriptTree ["a"]).IsLinkFree ∧ (scriptTree ["b", "c"]).IsLinkFree) ∧
      (∀ directories ∈ [["./src/"], ["a/src/", "src/k/"], ["src/"], ["../c/src/"]],
        ∀ pattern ∈ (wrapping directories).patterns, Path.anchorOf pattern.toList = .here) ∧
      (wrappedFrom ["a"] ["./src/"] = some ["app//a/src/k/x"] ∧
        wrappedFrom ["b", "c"] ["./src/"] = some ["app//b/c/src/k/x"]) ∧
      (wrappedFrom ["a"] ["a/src/", "src/k/"] = some ["app/k/x"] ∧
        wrappedFrom ["b", "c"] ["a/src/", "src/k/"] = some ["app/x"]) ∧
      wrappedFrom ["a\nb"] ["src/"] = some ["app//a\nk/x"] ∧
      (wrappedFrom ["a"] ["../c/src/"] = some [] ∧
        wrappedFrom ["b", "c"] ["../c/src/"] = some ["app//b/c/src/k/x"]) := by
  refine ⟨⟨sameBelow_scriptTree, Tree.isLinkFree_of_nodes ?_, Tree.isLinkFree_of_nodes ?_⟩, ?_⟩
  all_goals decide +kernel

end Compiler

end AssetBundler
