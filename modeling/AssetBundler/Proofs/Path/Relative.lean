import AssetBundler.Proofs.FileSystem.Normal
import AssetBundler.Proofs.Text.Lines

/-!
Ways between paths. The way from a directory to a path leads back to the path, be the directory
above, below or beside it.
-/

namespace AssetBundler

namespace Tree

/-- Each step that is taken makes a place longer by one name at most, and a step up never does. -/
theorem length_placeFrom_le (start : Location) (steps : List String) :
    (placeFrom start steps).length ≤ start.length + steps.countP (· ≠ "..") := by
  induction steps generalizing start with
  | nil => exact Nat.le_refl _
  | cons step rest inductionHypothesis =>
      have later := inductionHypothesis (advance start step)
      have first : (advance start step).length ≤
          start.length + if step ≠ ".." then 1 else 0 := by
        rw [advance]
        split_ifs with here up <;> simp_all
      rw [placeFrom, List.foldl_cons, List.countP_cons]
      rw [placeFrom] at later
      simp only [decide_eq_true_eq] at later ⊢
      omega

theorem placeFrom_append (start : Location) (steps more : List String) :
    placeFrom start (steps ++ more) = placeFrom (placeFrom start steps) more :=
  List.foldl_append

/-- As many steps up as there are names lead out of the names. -/
theorem placeFrom_up (start : Location) (names : List String) :
    placeFrom (start ++ names) (List.replicate names.length "..") = start := by
  induction names using List.reverseRecOn with
  | nil => exact List.append_nil start
  | append_singleton before name inductionHypothesis =>
      rw [List.length_append, List.length_singleton, List.replicate_succ, placeFrom,
        List.foldl_cons, advance, if_neg (by decide), if_pos rfl, ← List.append_assoc,
        List.dropLast_concat]
      exact inductionHypothesis

end Tree

namespace Path

variable {path origin directory : Path}

/-- The parts are those of a text. -/
def IsSpelled (path : Path) : Prop :=
  ∀ part ∈ path.parts, isPart part = true ∧ '/' ∉ part.toList

instance (path : Path) : Decidable path.IsSpelled :=
  inferInstanceAs (Decidable (∀ part ∈ path.parts, isPart part = true ∧ '/' ∉ part.toList))

theorem isSpelled_ofString (text : String) : (ofString text).IsSpelled := by
  intro part member
  obtain ⟨isOne, isPart⟩ := List.mem_filter.mp member
  exact ⟨isPart, Text.separator_not_mem_of_mem_splitOn isOne⟩

theorem isPart_iff {part : String} : isPart part = true ↔ part ≠ "" ∧ part ≠ "." := by
  simp [isPart]

theorem splitOn_intercalate_filter {parts : List String}
    (spelled : ∀ part ∈ parts, isPart part = true ∧ '/' ∉ part.toList) :
    (Text.splitOn '/' ("/".intercalate parts)).filter isPart = parts := by
  have kept : parts.filter isPart = parts :=
    List.filter_eq_self.mpr fun part member => (spelled part member).1
  by_cases filled : parts = []
  · subst filled
    decide +kernel
  · have split := Text.splitOn_intercalate_clean filled fun part member => (spelled part member).2
    rw [show "/" = String.singleton '/' from rfl, split, kept]

/-- Joined parts start with a character of the first part. -/
theorem head_intercalate {parts : List String}
    (spelled : ∀ part ∈ parts, isPart part = true ∧ '/' ∉ part.toList) :
    ("/".intercalate parts).toList.head? ≠ some '/' := by
  cases parts with
  | nil => simp
  | cons part rest =>
      obtain ⟨isPart, noSlash⟩ := spelled part List.mem_cons_self
      obtain ⟨c, others, shape⟩ := List.exists_cons_of_ne_nil
        (mt String.toList_eq_nil_iff.mp (isPart_iff.mp isPart).1)
      have other : c ≠ '/' := by
        rintro rfl
        exact noSlash (shape ▸ List.mem_cons_self)
      have start : ("/".intercalate (part :: rest)).toList.head? = some c := by
        cases rest with
        | nil => rw [String.intercalate_singleton, shape, List.head?_cons]
        | cons next later =>
            rw [String.intercalate_cons_cons, String.toList_append, String.toList_append, shape]
            rfl
      rw [start]
      exact fun same => other (Option.some.inj same)

theorem anchorOf_append (anchor : Anchor) {text : List Char} (bare : text.head? ≠ some '/') :
    anchorOf (anchor.text.toList ++ text) = anchor := by
  cases text with
  | nil => cases anchor <;> rfl
  | cons c rest =>
      have other : c ≠ '/' := fun same => bare (by rw [same, List.head?_cons])
      cases anchor <;> simp [Anchor.text, anchorOf, other]

/-- A path whose parts are those of a text is the path of its own text. -/
theorem IsSpelled.ofString_toString (spelled : path.IsSpelled) : ofString path.toString = path := by
  have read : ofString (path.anchor.text ++ "/".intercalate path.parts) = path := by
    have anchor := anchorOf_append path.anchor (head_intercalate spelled)
    have parts : (Text.splitOn '/' (path.anchor.text ++ "/".intercalate path.parts)).filter
        isPart = path.parts := by
      have joined := splitOn_intercalate_filter spelled
      have slashed (before rest : String) : (Text.splitOn '/' (before ++ "/" ++ rest)).filter
          isPart = (Text.splitOn '/' before).filter isPart ++
            (Text.splitOn '/' rest).filter isPart := by
        rw [show "/" = String.singleton '/' from rfl, Text.splitOn_append, List.filter_append]
      cases path.anchor with
      | here => rwa [Anchor.text, String.empty_append]
      | root => exact (slashed "" _).trans joined
      | doubleRoot => exact (slashed "/" _).trans joined
    rw [ofString, String.toList_append, anchor, parts]
  rw [toString]
  split
  · rename_i empty
    rw [← read, empty]
    rfl
  · exact read

/-- A path from the root, as its text spells it and as normalization leaves it. -/
structure IsNormal (path : Path) : Prop where
  rooted : path.anchor = .root
  spelled : path.IsSpelled
  normal : path.normalize = path

/-- The path of an absolute text is normal when normalization leaves it. -/
theorem isNormal_ofString {text : String} (rooted : (ofString text).anchor = .root)
    (normal : (ofString text).normalize = ofString text) : (ofString text).IsNormal :=
  ⟨rooted, isSpelled_ofString text, normal⟩

theorem length_cutAtNull_le (parts : List String) : (cutAtNull parts).length ≤ parts.length := by
  induction parts with
  | nil => exact Nat.le_refl _
  | cons part rest inductionHypothesis =>
      rw [cutAtNull]
      split
      · have short := List.length_filter_le isPart
          [String.ofList (part.toList.takeWhile (· != '\x00'))]
        simp only [List.length_cons, List.length_nil] at short ⊢
        omega
      · exact Nat.succ_le_succ inductionHypothesis

namespace IsNormal

theorem absolute (normal : path.IsNormal) : path.isAbsolute = true := by
  rw [isAbsolute, normal.rooted]
  rfl

theorem cut (normal : path.IsNormal) : cutAtNull (path.place []) = path.parts :=
  congrArg Path.parts ((normalize_eq normal.absolute).symm.trans normal.normal)

theorem clean (normal : path.IsNormal) : ∀ part ∈ path.parts, '\x00' ∉ part.toList := by
  intro part member
  rw [← normal.cut] at member
  exact null_not_mem_cutAtNull member

/-- No step up is left, since each of them makes the path shorter. -/
theorem plain (normal : path.IsNormal) : path.IsPlain := by
  intro part member
  have cut := length_cutAtNull_le (path.place [])
  have placed := Tree.length_placeFrom_le [] path.parts
  have counted := List.countP_le_length (p := (· ≠ "..")) (l := path.parts)
  rw [normal.cut, place_root] at cut
  rw [List.length_nil] at placed
  have all : path.parts.countP (· ≠ "..") = path.parts.length := by omega
  exact ⟨(isPart_iff.mp (normal.spelled part member).1).2,
    by simpa using List.countP_eq_length.mp all part member⟩

end IsNormal

/-- What two lists do not share at their starts are their ends behind a common start. -/
theorem exists_dropCommon (first second : List String) :
    ∃ common, first = common ++ (dropCommon first second).1 ∧
      second = common ++ (dropCommon first second).2 := by
  fun_induction dropCommon first second with
  | case1 rest shared others inductionHypothesis =>
      obtain ⟨common, ofFirst, ofSecond⟩ := inductionHypothesis
      exact ⟨shared :: common, congrArg (shared :: ·) ofFirst, congrArg (shared :: ·) ofSecond⟩
  | case2 => exact ⟨[], rfl, rfl⟩
  | case3 => exact ⟨[], rfl, rfl⟩

/-- The way to a path leads up out of what the directory has for itself, and down again. -/
theorem exists_relativeFrom (path directory : Path) :
    ∃ common up down, directory.parts = common ++ up ∧ path.parts = common ++ down ∧
      path.relativeFrom directory = ⟨.here, List.replicate up.length ".." ++ down⟩ := by
  obtain ⟨common, ofDirectory, ofPath⟩ := exists_dropCommon directory.parts path.parts
  refine ⟨common, _, _, ofDirectory, ofPath, ?_⟩
  simp only [relativeFrom, List.map_const']

theorem IsSpelled.relativeFrom (spelled : path.IsSpelled) (directory : Path) :
    (path.relativeFrom directory).IsSpelled := by
  obtain ⟨common, up, down, -, ofPath, way⟩ := exists_relativeFrom path directory
  intro part member
  rw [way] at member
  rcases List.mem_append.mp member with above | below
  · rw [List.eq_of_mem_replicate above]
    decide +kernel
  · exact spelled part (ofPath ▸ List.mem_append_right common below)

/-- The way from a directory, as its text spells it, leads back to the path. -/
theorem normalize_joinText_relativeFrom (normal : origin.IsNormal) (target : directory.IsNormal) :
    (directory.joinText (origin.relativeFrom directory).toString).normalize = origin := by
  obtain ⟨common, up, down, ofDirectory, ofOrigin, way⟩ := exists_relativeFrom origin directory
  have joined : directory.joinText (origin.relativeFrom directory).toString =
      ⟨.root, directory.parts ++ (List.replicate up.length ".." ++ down)⟩ := by
    rw [joinText, (normal.spelled.relativeFrom directory).ofString_toString, way, join,
      target.rooted]
  have place : place ⟨.root, directory.parts ++ (List.replicate up.length ".." ++ down)⟩ [] =
      origin.parts := by
    have plainDown : ∀ step ∈ down, step ≠ "." ∧ step ≠ ".." := fun step member =>
      normal.plain step (ofOrigin ▸ List.mem_append_right common member)
    rw [place_root, Tree.placeFrom_append, Tree.placeFrom_append,
      Tree.placeFrom_names target.plain, List.nil_append, ofDirectory, Tree.placeFrom_up,
      Tree.placeFrom_names plainDown, ofOrigin]
  rw [joined, normalize_of_clean rfl (by rw [place]; exact normal.clean), place, ← normal.rooted]

end Path

end AssetBundler
