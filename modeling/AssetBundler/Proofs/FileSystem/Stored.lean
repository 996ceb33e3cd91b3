import AssetBundler.Proofs.FileSystem.Directories

/-!
What writing files leaves of a tree, where no link stands on the way. The files stand at the places
of their paths, and nothing else changes.
-/

namespace AssetBundler.Tree

variable {tree stored : Tree} {directory location : Location} {path : Path} {contents : Bytes}

/-- A file that is written takes its place. -/
theorem write_place (clear : tree.IsClear (path.entered directory))
    (written : tree.write directory path contents = .ok stored) :
    holdsNull path = false ∧
      tree.locate directory true path = .ok (path.place directory) ∧
      tree.get? (path.place directory) ≠ some .directory ∧
      stored = tree.set (path.place directory) (.file contents) := by
  obtain ⟨clean, location, located, isOpen, same⟩ := write_eq_ok.mp written
  obtain ⟨rfl, -⟩ := locate_place clear located
  exact ⟨clean, located, isOpen, same⟩

theorem IsClear.set_file {locations : List Location} (clear : tree.IsClear locations)
    (below : location ≠ []) : (tree.set location (.file contents)).IsClear locations := by
  intro passed member target
  rw [get?_set tree location passed _ below]
  split
  · simp
  · exact clear passed member target

theorem get?_set_file {passed : Location} (isOpen : tree.get? location ≠ some .directory)
    (found : tree.get? passed = some .directory) :
    (tree.set location (.file contents)).get? passed = some .directory := by
  have apart : location ≠ passed := fun same => isOpen (same ▸ found)
  rw [get?_set tree location passed _ (ne_nil_of_open isOpen), if_neg apart, found]

/-- The places of the paths of files. -/
def places (directory : Location) (files : List (Path × Bytes)) : List Location :=
  files.map fun file => file.1.place directory

/-- Files were written to their places, none of which held a directory, and nothing else was
changed. Their paths still lead to these places. -/
structure HasWritten (tree stored : Tree) (directory : Location)
    (files : List (Path × Bytes)) : Prop where
  sound : stored.IsSound
  clean : ∀ file ∈ files, holdsNull file.1 = false
  isOpen : ∀ location ∈ places directory files, tree.get? location ≠ some .directory
  located : ∀ file ∈ files,
    stored.locate directory true file.1 = .ok (file.1.place directory)
  isFile : ∀ location ∈ places directory files,
    ∃ contents, stored.get? location = some (.file contents)
  holds : (places directory files).Nodup → ∀ file ∈ files,
    stored.get? (file.1.place directory) = some (.file file.2)
  get?_other : ∀ location, location ∉ places directory files →
    stored.get? location = tree.get? location

theorem HasWritten.get?_directory {files : List (Path × Bytes)}
    (done : tree.HasWritten stored directory files)
    (found : tree.get? location = some .directory) :
    stored.get? location = some .directory := by
  rw [done.get?_other location fun member => done.isOpen location member found, found]

theorem HasWritten.isClear {files : List (Path × Bytes)} {locations : List Location}
    (done : tree.HasWritten stored directory files) (clear : tree.IsClear locations) :
    stored.IsClear locations := by
  intro passed member target
  by_cases isPlace : passed ∈ places directory files
  · obtain ⟨contents, found⟩ := done.isFile passed isPlace
    simp [found]
  · rw [done.get?_other passed isPlace]
    exact clear passed member target

/-- A file is written first, and the others after it. -/
theorem HasWritten.cons {files : List (Path × Bytes)} {file : Path × Bytes}
    (clear : tree.IsClear (file.1.entered directory)) (clean : holdsNull file.1 = false)
    (located : tree.locate directory true file.1 = .ok (file.1.place directory))
    (isOpen : tree.get? (file.1.place directory) ≠ some .directory)
    (later : (tree.set (file.1.place directory) (.file file.2)).HasWritten stored directory
      files) :
    tree.HasWritten stored directory (file :: files) := by
  have below := ne_nil_of_open isOpen
  have replaced (location : Location) :=
    get?_set tree (file.1.place directory) location (.file file.2) below
  have first (notLater : file.1.place directory ∉ places directory files) :
      stored.get? (file.1.place directory) = some (.file file.2) := by
    rw [later.get?_other _ notLater, replaced, if_pos rfl]
  have standsThere : ∃ contents, stored.get? (file.1.place directory) = some (.file contents) := by
    by_cases again : file.1.place directory ∈ places directory files
    · exact later.isFile _ again
    · exact ⟨_, first again⟩
  constructor
  · exact later.sound
  · exact List.forall_mem_cons.mpr ⟨clean, later.clean⟩
  · refine List.forall_mem_cons.mpr ⟨isOpen, fun location member found => ?_⟩
    exact later.isOpen location member (get?_set_file isOpen found)
  · refine List.forall_mem_cons.mpr ⟨?_, later.located⟩
    apply locate_transfer clear located
    · exact fun passed _ found => later.get?_directory (get?_set_file isOpen found)
    · intro passed member target
      obtain ⟨contents, found⟩ := standsThere
      rw [List.mem_singleton.mp member, found]
      simp
  · exact List.forall_mem_cons.mpr ⟨standsThere, later.isFile⟩
  · intro apart
    obtain ⟨notLater, apartLater⟩ := List.nodup_cons.mp apart
    exact List.forall_mem_cons.mpr ⟨first notLater, later.holds apartLater⟩
  · intro location isOther
    obtain ⟨notFirst, notLater⟩ := not_or.mp fun among => isOther (List.mem_cons.mpr among)
    rw [later.get?_other location notLater, replaced, if_neg (Ne.symm notFirst)]

/-- Files that are written one after another all take their places. -/
theorem hasWritten_of_writeFiles {files : List (Path × Bytes)} (sound : tree.IsSound)
    (starts : ∀ file ∈ files, tree.get? (file.1.start directory) = some .directory)
    (clear : ∀ file ∈ files, tree.IsClear (file.1.entered directory))
    (done : tree.writeFiles directory files = (.ok (), stored)) :
    tree.HasWritten stored directory files := by
  induction files generalizing tree with
  | nil =>
      cases done
      constructor <;> simp [places, sound]
  | cons file rest inductionHypothesis =>
      rw [writeFiles] at done
      cases written : tree.write directory file.1 file.2 with
      | error fault => simp [written] at done
      | ok next =>
          simp only [written] at done
          have clearFirst := clear file List.mem_cons_self
          obtain ⟨clean, located, isOpen, rfl⟩ := write_place clearFirst written
          have soundNext := sound_of_located sound (starts file List.mem_cons_self) clearFirst clean
            located isOpen (.file file.2)
          refine HasWritten.cons clearFirst clean located isOpen
            (inductionHypothesis soundNext ?_ ?_ done)
          · intro other member
            exact get?_set_file isOpen (starts other (List.mem_cons_of_mem _ member))
          · intro other member
            exact (clear other (List.mem_cons_of_mem _ member)).set_file (ne_nil_of_open isOpen)

/-- Where files stand at the places of paths already, files can be written. -/
theorem exists_writeFiles {files : List (Path × Bytes)}
    (clear : ∀ file ∈ files, tree.IsClear (file.1.entered directory))
    (clean : ∀ file ∈ files, holdsNull file.1 = false)
    (located : ∀ file ∈ files, tree.locate directory true file.1 = .ok (file.1.place directory))
    (isFile : ∀ file ∈ files, ∃ contents,
      tree.get? (file.1.place directory) = some (.file contents)) :
    ∃ left, tree.writeFiles directory files = (.ok (), left) := by
  induction files generalizing tree with
  | nil => exact ⟨tree, rfl⟩
  | cons file rest inductionHypothesis =>
      have isOpen : tree.get? (file.1.place directory) ≠ some .directory := by
        obtain ⟨contents, found⟩ := isFile file List.mem_cons_self
        simp [found]
      have below := ne_nil_of_open isOpen
      have written : tree.write directory file.1 file.2 =
          .ok (tree.set (file.1.place directory) (.file file.2)) :=
        write_eq_ok.mpr ⟨clean file List.mem_cons_self, _, located file List.mem_cons_self, isOpen,
          rfl⟩
      have stands : ∀ other ∈ rest, ∃ contents,
          (tree.set (file.1.place directory) (.file file.2)).get? (other.1.place directory) =
            some (.file contents) := by
        intro other member
        rw [get?_set tree _ _ _ below]
        split
        · exact ⟨file.2, rfl⟩
        · exact isFile other (List.mem_cons_of_mem _ member)
      rw [writeFiles, written]
      apply inductionHypothesis
      · exact fun other member => (clear other (List.mem_cons_of_mem _ member)).set_file below
      · exact fun other member => clean other (List.mem_cons_of_mem _ member)
      · intro other member
        apply locate_transfer (clear other (List.mem_cons_of_mem _ member))
          (located other (List.mem_cons_of_mem _ member))
        · exact fun passed _ found => get?_set_file isOpen found
        · intro passed isPlace target
          obtain ⟨contents, found⟩ := stands other member
          rw [List.mem_singleton.mp isPlace, found]
          simp
      · exact stands

/-- Files that stand at their places are written anew, with whatever contents. -/
theorem HasWritten.rewrite {files others : List (Path × Bytes)}
    (done : tree.HasWritten stored directory files)
    (paths : others.map Prod.fst = files.map Prod.fst)
    (starts : ∀ file ∈ others, stored.get? (file.1.start directory) = some .directory)
    (clear : ∀ file ∈ others, stored.IsClear (file.1.entered directory)) :
    ∃ left, stored.writeFiles directory others = (.ok (), left) ∧
      stored.HasWritten left directory others := by
  have known : ∀ other ∈ others, ∃ file ∈ files, file.1 = other.1 := by
    intro other member
    have isPath : other.1 ∈ files.map Prod.fst := paths ▸ List.mem_map_of_mem member
    exact List.mem_map.mp isPath
  obtain ⟨left, writes⟩ : ∃ left, stored.writeFiles directory others = (.ok (), left) := by
    refine exists_writeFiles clear ?_ ?_ ?_ <;> intro other member <;>
      obtain ⟨file, isFile, same⟩ := known other member <;> rw [← same]
    · exact done.clean file isFile
    · exact done.located file isFile
    · exact done.isFile _ (List.mem_map_of_mem isFile)
  exact ⟨left, writes, hasWritten_of_writeFiles done.sound starts clear writes⟩

end AssetBundler.Tree
