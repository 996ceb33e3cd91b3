import AssetBundler.Proofs.FileSystem.LongNames
import AssetBundler.Proofs.FileSystem.Reached

/-!
Ways as a relation. A way that leads somewhere is built step by step, also behind links, so what it
passes is told by induction on it.
-/

namespace AssetBundler

namespace Tree

/-- A way by steps from a start to a location. Each link that it follows leaves one less for what
comes after. -/
inductive Walks (tree : Tree) : Nat → Location → List String → Location → Prop where
  | done {links : Nat} {start : Location} : Walks tree links start [] start
  | here {links : Nat} {start location : Location} {rest : List String}
      (onward : Walks tree links start rest location) :
      Walks tree links start ("." :: rest) location
  | up {links : Nat} {start location : Location} {rest : List String}
      (onward : Walks tree links start.dropLast rest location) :
      Walks tree links start (".." :: rest) location
  | ending {links : Nat} {start : Location} {step : String}
      (isName : step ≠ "." ∧ step ≠ "..") (fits : ¬ nameLimit < Utf8.size step)
      (ends : tree.get? (start ++ [step]) = none ∨
        ∃ contents, tree.get? (start ++ [step]) = some (.file contents)) :
      Walks tree links start [step] (start ++ [step])
  | directory {links : Nat} {start location : Location} {step : String} {rest : List String}
      (isName : step ≠ "." ∧ step ≠ "..") (fits : ¬ nameLimit < Utf8.size step)
      (entered : tree.get? (start ++ [step]) = some .directory)
      (onward : Walks tree links (start ++ [step]) rest location) :
      Walks tree links start (step :: rest) location
  | link {links : Nat} {start location : Location} {step target : String} {rest : List String}
      (isName : step ≠ "." ∧ step ≠ "..") (fits : ¬ nameLimit < Utf8.size step)
      (isLink : tree.get? (start ++ [step]) = some (.link target))
      (onward : Walks tree links (if target.startsWith "/" then [] else start)
        (stepsOf target ++ rest) location) :
      Walks tree (links + 1) start (step :: rest) location

variable {tree : Tree} {links : Nat} {start location : Location} {steps : List String}

/-- A way of steps is one of the relation when what follows a link is. -/
theorem walks_of_walkSteps {enter : Location → List String → Except Refusal Location}
    (behind : ∀ start steps, enter start steps = .ok location →
      ∃ fewer, links = fewer + 1 ∧ Walks tree fewer start steps location)
    (walked : walkSteps tree true enter start steps = .ok location) :
    Walks tree links start steps location := by
  fun_induction walkSteps tree true enter start steps with
  | case1 start =>
      rw [← Except.ok.inj walked]
      exact .done
  | case2 start rest inductionHypothesis => exact .here (inductionHypothesis walked)
  | case3 start rest notHere inductionHypothesis => exact .up (inductionHypothesis walked)
  | case5 start step notHere notUp fits here free =>
      rw [← Except.ok.inj walked]
      exact .ending ⟨notHere, notUp⟩ fits (Or.inl free)
  | case7 start step rest notHere notUp fits here entered inductionHypothesis =>
      exact .directory ⟨notHere, notUp⟩ fits entered (inductionHypothesis walked)
  | case8 start step notHere notUp fits here contents isFile =>
      rw [← Except.ok.inj walked]
      exact .ending ⟨notHere, notUp⟩ fits (Or.inr ⟨contents, isFile⟩)
  | case4 | case6 | case9 => cases walked
  | case10 start step rest notHere notUp fits here target isLink last => simp at last
  | case11 start step rest notHere notUp fits here target isLink last =>
      obtain ⟨fewer, rfl, onward⟩ := behind _ _ walked
      exact .link ⟨notHere, notUp⟩ fits isLink onward

theorem walks_of_walk (links : Nat) : ∀ start steps,
    walk tree true links start steps = .ok location → Walks tree links start steps location := by
  induction links with
  | zero =>
      intro start steps walked
      exact walks_of_walkSteps (fun _ _ refused => by cases refused) walked
  | succ links inductionHypothesis =>
      intro start steps walked
      exact walks_of_walkSteps
        (fun next later onward => ⟨links, rfl, inductionHypothesis next later onward⟩) walked

/-- The steps of a way are those of the relation, however many links are left. -/
theorem Walks.walk (walks : Walks tree links start steps location) :
    walk tree true links start steps = .ok location := by
  induction walks with
  | @done links start => cases links <;> rfl
  | @here links start location rest onward inductionHypothesis =>
      rw [← inductionHypothesis]
      cases links <;> rw [Tree.walk, Tree.walk, walkSteps_here]
  | @up links start location rest onward inductionHypothesis =>
      rw [← inductionHypothesis]
      cases links <;> rw [Tree.walk, Tree.walk, walkSteps_up]
  | @ending links start step isName fits ends =>
      cases links <;> rw [Tree.walk, walkSteps, if_neg isName.1, if_neg isName.2, if_neg fits] <;>
        rcases ends with free | ⟨contents, isFile⟩ <;> simp [*]
  | @directory links start location step rest isName fits entered onward inductionHypothesis =>
      rw [← inductionHypothesis]
      cases links <;> rw [Tree.walk, Tree.walk, walkSteps_directory isName.1 isName.2 fits entered]
  | @link links start location step target rest isName fits isLink onward inductionHypothesis =>
      rw [Tree.walk, walkSteps, if_neg isName.1, if_neg isName.2, if_neg fits]
      simp only [isLink, Bool.not_true, Bool.false_eq_true, and_false, if_false]
      exact inductionHypothesis

/-- A way to a node takes its steps from the names of nodes, apart from points. -/
theorem Walks.forall_steps (good : String → Prop) (here : good ".") (up : good "..")
    (names : ∀ location node, tree.get? location = some node → ∀ name ∈ location, good name)
    (walks : Walks tree links start steps location) {node : Node}
    (found : tree.get? location = some node) : ∀ step ∈ steps, good step := by
  have entered {before : Location} {step : String} {node : Node}
      (there : tree.get? (before ++ [step]) = some node) : good step :=
    names _ node there step (List.mem_append_right _ List.mem_cons_self)
  induction walks with
  | done => exact fun step member => absurd member List.not_mem_nil
  | here onward inductionHypothesis =>
      exact List.forall_mem_cons.mpr ⟨here, inductionHypothesis found⟩
  | up onward inductionHypothesis =>
      exact List.forall_mem_cons.mpr ⟨up, inductionHypothesis found⟩
  | ending isName fits ends => exact List.forall_mem_singleton.mpr (entered found)
  | directory isName fits isDirectory onward inductionHypothesis =>
      exact List.forall_mem_cons.mpr ⟨entered isDirectory, inductionHypothesis found⟩
  | link isName fits isLink onward inductionHypothesis =>
      exact List.forall_mem_cons.mpr ⟨entered isLink,
        fun step member => inductionHypothesis found step (List.mem_append_right _ member)⟩

/-- A way to a node passes no name with a null character. -/
theorem Walks.clean (sound : tree.IsSound) (walks : Walks tree links start steps location)
    {node : Node} (found : tree.get? location = some node) :
    ∀ step ∈ steps, '\x00' ∉ step.toList :=
  walks.forall_steps (fun step => '\x00' ∉ step.toList) (by decide +kernel) (by decide +kernel)
    (fun location node there name member => (sound.named location node there name member).2.2) found

/-- A way whose last step leads up ends at a directory. -/
theorem Walks.directory_of_up (sound : tree.IsSound)
    (walks : Walks tree links start steps location)
    (starts : tree.get? start = some .directory) (last : steps.getLast? = some "..") :
    tree.get? location = some .directory := by
  have ends {step : String} {rest : List String} (more : rest ≠ [])
      (last : (step :: rest).getLast? = some "..") : rest.getLast? = some ".." := by
    rwa [List.getLast?_cons_of_ne_nil more] at last
  induction walks with
  | done => cases last
  | @here links start location rest onward inductionHypothesis =>
      cases rest with
      | nil => simp at last
      | cons next later => exact inductionHypothesis starts (ends (List.cons_ne_nil _ _) last)
  | @up links start location rest onward inductionHypothesis =>
      have above := sound.parent start _ starts
      cases rest with
      | nil =>
          cases onward
          exact above
      | cons next later => exact inductionHypothesis above (ends (List.cons_ne_nil _ _) last)
  | ending isName fits ends => exact absurd (by simpa using last) isName.2
  | @directory links start location step rest isName fits entered onward inductionHypothesis =>
      cases rest with
      | nil => exact absurd (by simpa using last) isName.2
      | cons next later => exact inductionHypothesis entered (ends (List.cons_ne_nil _ _) last)
  | @link links start location step target rest isName fits isLink onward inductionHypothesis =>
      cases rest with
      | nil => exact absurd (by simpa using last) isName.2
      | cons next later =>
          refine inductionHypothesis ?_ ?_
          · split
            · rfl
            · exact starts
          · rw [List.getLast?_append_of_ne_nil _ (List.cons_ne_nil _ _)]
            exact ends (List.cons_ne_nil _ _) last

/-- Steps with some of their points left out. -/
inductive Thins : List String → List String → Prop where
  | done : Thins [] []
  | drop {step : String} {steps others : List String} (point : step = ".")
      (rest : Thins steps others) : Thins (step :: steps) others
  | keep {step : String} {steps others : List String} (rest : Thins steps others) :
      Thins (step :: steps) (step :: others)

theorem Thins.append_left {steps others : List String} (thins : Thins steps others) :
    ∀ before : List String, Thins (before ++ steps) (before ++ others)
  | [] => thins
  | _ :: before => .keep (thins.append_left before)

theorem thins_names : ∀ steps : List String, Thins steps (Path.names steps)
  | [] => .done
  | step :: rest => by
      by_cases point : step = "."
      · rw [Path.names, List.filter_cons_of_neg (by simpa using point)]
        exact .drop point (thins_names rest)
      · rw [Path.names, List.filter_cons_of_pos (by simpa using point)]
        exact .keep (thins_names rest)

/-- A way leads to the same location without some of its points. -/
theorem Walks.thin (walks : Walks tree links start steps location) {others : List String}
    (thins : Thins steps others) : Walks tree links start others location := by
  induction walks generalizing others with
  | done =>
      cases thins
      exact .done
  | here onward inductionHypothesis =>
      cases thins with
      | drop point rest => exact inductionHypothesis rest
      | keep rest => exact .here (inductionHypothesis rest)
  | up onward inductionHypothesis =>
      cases thins with
      | drop point rest => exact absurd point (by decide)
      | keep rest => exact .up (inductionHypothesis rest)
  | ending isName fits ends =>
      cases thins with
      | drop point rest => exact absurd point isName.1
      | keep rest =>
          cases rest
          exact .ending isName fits ends
  | directory isName fits entered onward inductionHypothesis =>
      cases thins with
      | drop point rest => exact absurd point isName.1
      | keep rest => exact .directory isName fits entered (inductionHypothesis rest)
  | link isName fits isLink onward inductionHypothesis =>
      cases thins with
      | drop point rest => exact absurd point isName.1
      | keep rest => exact .link isName fits isLink (inductionHypothesis (rest.append_left _))

end Tree

namespace Path

theorem size_intercalate_concat {texts others : List String} (text : String)
    (shorter : Utf8.size ("/".intercalate texts) ≤ Utf8.size ("/".intercalate others))
    (filled : texts ≠ [] → others ≠ []) :
    Utf8.size ("/".intercalate (texts ++ [text])) ≤
      Utf8.size ("/".intercalate (others ++ [text])) := by
  by_cases first : others = []
  · have same : texts = [] := not_not.mp fun more => filled more first
    rw [first, same]
  · rw [intercalate_append first (List.cons_ne_nil text [])]
    by_cases alone : texts = []
    · rw [alone, List.nil_append]
      simp only [Utf8.size, String.utf8ByteSize_append]
      omega
    · rw [intercalate_append alone (List.cons_ne_nil text [])]
      simp only [Utf8.size, String.utf8ByteSize_append] at shorter ⊢
      omega

/-- The text of a place is no longer than that of the steps to it. -/
theorem size_placeFrom (steps : List String) :
    Utf8.size ("/".intercalate (Tree.placeFrom [] steps)) ≤ Utf8.size ("/".intercalate steps) ∧
      (Tree.placeFrom [] steps ≠ [] → steps ≠ []) := by
  induction steps using List.reverseRecOn with
  | nil => exact ⟨Nat.le_refl _, id⟩
  | append_singleton steps step inductionHypothesis =>
      obtain ⟨shorter, filled⟩ := inductionHypothesis
      refine ⟨?_, fun _ => by simp⟩
      have longer := size_intercalate_append steps [step]
      rw [Tree.placeFrom_concat, Tree.advance]
      split
      · omega
      · split
        · obtain ⟨more, whole⟩ := List.dropLast_prefix (Tree.placeFrom [] steps)
          have dropped := size_intercalate_append (Tree.placeFrom [] steps).dropLast more
          rw [whole] at dropped
          omega
        · exact size_intercalate_concat step shorter filled

end Path

namespace Tree

section Normalized

variable {tree : Tree} {path : Path} {location : Location} {node : Node} (sound : tree.IsSound)
  (absolute : path.isAbsolute = true) (located : tree.locate [] true path = .ok location)
  (found : tree.get? location = some node)
include absolute located

/-- The way of an absolute path that leads to a location. -/
theorem walks_of_locate : Walks tree linkLimit [] path.parts location := by
  obtain ⟨-, walked⟩ := locate_eq_ok.mp located
  rw [Path.start, if_pos absolute] at walked
  exact walks_of_walk linkLimit [] path.parts walked

include sound found

theorem normalize_of_locate : path.normalize = ⟨path.anchor, path.place []⟩ :=
  Path.normalize_of_clean absolute fun _ member =>
    (walks_of_locate absolute located).clean sound found _ (Path.mem_place member).1

/-- A path to a node is straight once it is normalized. -/
theorem isStraight_normalize : path.normalize.IsStraight := by
  rw [normalize_of_locate sound absolute located found]
  exact ⟨absolute, fun part member => (Path.mem_place member).2⟩

theorem short_normalize : ¬ pathLimit < Utf8.size path.normalize.toString := by
  have absoluteSame : (path.normalize).isAbsolute = true := absolute
  obtain ⟨short, -⟩ := locate_eq_ok.mp located
  have shorter := (Path.size_placeFrom path.parts).1
  rw [Path.toString_eq absolute] at short
  rw [Path.toString_eq absoluteSame, normalize_of_locate sound absolute located found,
    Path.place_root]
  simp only [Utf8.size, String.utf8ByteSize_append] at short shorter ⊢
  omega

/-- Without a step up the normalized path goes the same way, whatever links stand on it. -/
theorem locate_normalize_of_level (level : ".." ∉ path.parts) :
    tree.locate [] true path.normalize = .ok location := by
  have thinned := (walks_of_locate absolute located).thin (thins_names path.parts)
  refine locate_eq_ok.mpr ⟨short_normalize sound absolute located found, ?_⟩
  rw [normalize_of_locate sound absolute located found, Path.start, ite_self, Path.place_root,
    Path.placeFrom_level level, List.nil_append]
  exact thinned.walk

/-- Without links the normalized path leads to the same place, whatever steps it takes. -/
theorem locate_normalize_of_free (free : tree.IsLinkFree) :
    tree.locate [] true path.normalize = .ok location := by
  have straight := isStraight_normalize sound absolute located found
  obtain ⟨ends, -⟩ := locate_place (free.isClear _) located
  have parts : path.normalize.parts = location := by
    rw [normalize_of_locate sound absolute located found, ends]
  rw [← parts] at found ⊢
  refine (locate_of_get? sound free straight found).resolve_right fun refused => ?_
  rcases (locate_straight_tooLong sound free straight).mp refused with
    long | ⟨before, name, start, -, long⟩
  · exact short_normalize sound absolute located (parts ▸ found) long
  · have isPart : name ∈ path.place [] := by
      rw [← ends, ← parts]
      exact start.subset (List.mem_append_right _ List.mem_cons_self)
    obtain ⟨inParts, notHere, notUp⟩ := Path.mem_place isPart
    have fits := short_of_walkSteps (free.isClear _) (locate_eq_ok.mp located).2 name inParts
      notHere notUp
    exact Nat.not_lt.mpr fits long

end Normalized

end Tree

end AssetBundler
