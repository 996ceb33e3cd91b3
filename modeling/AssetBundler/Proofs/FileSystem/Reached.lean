import AssetBundler.Proofs.FileSystem.Moved

/-!
Paths that reach something. A path without steps up reaches what stands at its place when neither
its text nor one of its names is too long.
-/

namespace AssetBundler

namespace Tree

variable {tree : Tree} {follows : Bool} {start location : Location} {steps : List String}
  {name : String}

/-- A way that ends with a name goes through the directory that holds the name. -/
theorem walkSteps_before {enter : Location → List String → Except Refusal Location}
    (clear : tree.IsClear (enteredFrom start (steps ++ [name])))
    (walked : walkSteps tree follows enter start (steps ++ [name]) = .ok location) :
    walkSteps tree follows enter start steps = .ok (placeFrom start steps) := by
  induction steps generalizing start with
  | nil => rw [walkSteps, placeFrom, List.foldl_nil]
  | cons step rest inductionHypothesis =>
      have more : rest ++ [name] ≠ [] := by simp
      rw [List.cons_append, enteredFrom] at clear
      rw [List.cons_append, walkSteps] at walked
      rw [walkSteps, placeFrom, List.foldl_cons, advance]
      by_cases here : step = "."
      · rw [if_pos (Or.inl here)] at clear
        rw [if_pos here] at walked ⊢
        rw [advance, if_pos here] at clear
        rw [if_pos here]
        exact inductionHypothesis clear walked
      · rw [if_neg here] at walked ⊢
        rw [if_neg here]
        by_cases up : step = ".."
        · rw [if_pos (Or.inr up), advance, if_neg here, if_pos up] at clear
          rw [if_pos up] at walked ⊢
          rw [if_pos up]
          exact inductionHypothesis clear walked
        · rw [if_neg (not_or.mpr ⟨here, up⟩)] at clear
          rw [if_neg up] at walked ⊢
          rw [if_neg up]
          split at walked
          · cases walked
          · rename_i fits
            rw [if_neg fits]
            simp only [more, if_false, false_and] at walked
            cases found : tree.get? (start ++ [step]) with
            | none => simp [found] at walked
            | some node =>
                cases node with
                | directory =>
                    simp only [found] at walked ⊢
                    exact inductionHypothesis
                      (fun passed member => clear passed (List.mem_cons_of_mem _ member)) walked
                | file contents => simp [found] at walked
                | link target => exact absurd found (clear _ List.mem_cons_self target)

/-- No name on a way that was gone is too long. -/
theorem short_of_walkSteps {enter : Location → List String → Except Refusal Location}
    (clear : tree.IsClear (enteredFrom start steps))
    (walked : walkSteps tree follows enter start steps = .ok location) :
    ∀ step ∈ steps, step ≠ "." → step ≠ ".." → Utf8.size step ≤ nameLimit := by
  fun_induction walkSteps tree follows enter start steps with
  | case1 => exact fun step member => absurd member List.not_mem_nil
  | case2 start rest inductionHypothesis =>
      exact List.forall_mem_cons.mpr
        ⟨fun notHere => absurd rfl notHere, inductionHypothesis clear walked⟩
  | case3 start rest notHere inductionHypothesis =>
      exact List.forall_mem_cons.mpr
        ⟨fun _ notUp => absurd rfl notUp, inductionHypothesis clear walked⟩
  | case5 start step notHere notUp fits here free =>
      exact List.forall_mem_singleton.mpr fun _ _ => Nat.not_lt.mp fits
  | case7 start step rest notHere notUp fits here entered inductionHypothesis =>
      simp only [enteredFrom, notHere, notUp, or_self, if_false] at clear
      exact List.forall_mem_cons.mpr ⟨fun _ _ => Nat.not_lt.mp fits, inductionHypothesis
        (fun passed member => clear passed (List.mem_cons_of_mem _ member)) walked⟩
  | case8 start step notHere notUp fits here contents isFile =>
      exact List.forall_mem_singleton.mpr fun _ _ => Nat.not_lt.mp fits
  | case4 | case6 | case9 => cases walked
  | case10 start step rest notHere notUp _ here target isLink last
  | case11 start step rest notHere notUp _ here target isLink last =>
      simp only [enteredFrom, notHere, notUp, or_self, if_false] at clear
      exact absurd isLink (clear here List.mem_cons_self target)

section Level

variable (sound : tree.IsSound) (free : tree.IsLinkFree) {node : Node}
include sound free

/-- A way with no steps up and only short names leads to the node at its end. -/
theorem walkSteps_level {enter : Location → List String → Except Refusal Location}
    (level : ".." ∉ steps) (notHere : name ≠ ".") (notUp : name ≠ "..")
    (there : tree.get? (start ++ Path.names steps ++ [name]) = some node)
    (short : ∀ part ∈ Path.names steps ++ [name], Utf8.size part ≤ nameLimit) :
    walkSteps tree follows enter start (steps ++ [name]) =
      .ok (start ++ Path.names steps ++ [name]) := by
  induction steps generalizing start with
  | nil =>
      have fits := short name List.mem_cons_self
      rw [List.nil_append, Path.names, List.filter_nil, List.append_nil]
      exact walkSteps_last notHere notUp (Nat.not_lt.mpr fits) (free.isClear _)
  | cons step rest inductionHypothesis =>
      obtain ⟨stepNotUp, levelRest⟩ := not_or.mp fun either => level (List.mem_cons.mpr either)
      by_cases here : step = "."
      · subst here
        have same : Path.names ("." :: rest) = Path.names rest := rfl
        rw [same] at there short ⊢
        rw [List.cons_append, walkSteps_here]
        exact inductionHypothesis levelRest there short
      · have taken : Path.names (step :: rest) = step :: Path.names rest := by
          simp [Path.names, here]
        rw [taken] at there short ⊢
        rw [List.append_cons start step] at there ⊢
        have entered : tree.get? (start ++ [step]) = some .directory := by
          rw [List.append_assoc] at there
          exact sound.above there (List.prefix_append _ _) (by simp)
        have fits := Nat.not_lt.mpr (short step List.mem_cons_self)
        rw [List.cons_append, walkSteps_directory here (Ne.symm stepNotUp) fits entered]
        exact inductionHypothesis levelRest there fun part member =>
          short part (List.mem_cons_of_mem step member)

/-- What it takes to reach a node by its name without steps up. -/
theorem locate_level_iff {path : Path} (level : ".." ∉ path.parts) (notHere : name ≠ ".")
    (notUp : name ≠ "..") :
    tree.locate [] true (path.below [name]) = .ok ((path.below [name]).place []) ∧
        tree.get? ((path.below [name]).place []) = some node ↔
      tree.get? (path.place [] ++ [name]) = some node ∧
        Utf8.size (path.below [name]).toString ≤ pathLimit ∧
        ∀ part ∈ path.place [] ++ [name], Utf8.size part ≤ nameLimit := by
  have start : (path.below [name]).start [] = [] := ite_self _
  have place : path.place [] = Path.names path.parts := by
    rw [Path.place_root, Path.placeFrom_level level, List.nil_append]
  have placeBelow : (path.below [name]).place [] = path.place [] ++ [name] := by
    rw [Path.place_root, Path.below, placeFrom_concat, ← Path.place_root, advance, if_neg notHere,
      if_neg notUp]
  rw [placeBelow, locate_eq_ok, start, Nat.not_lt]
  constructor
  · rintro ⟨⟨short, walked⟩, there⟩
    refine ⟨there, short, fun part member => ?_⟩
    have fits := short_of_walkSteps (free.isClear _) walked
    rw [← placeBelow] at member
    obtain ⟨isStep, isName⟩ := Path.mem_place member
    exact fits part isStep isName.1 isName.2
  · rintro ⟨there, short, fits⟩
    refine ⟨⟨short, ?_⟩, there⟩
    rw [place] at there fits ⊢
    exact walkSteps_level sound free level notHere notUp there fits

end Level

end Tree

end AssetBundler
