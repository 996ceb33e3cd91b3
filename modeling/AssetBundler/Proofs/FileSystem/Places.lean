import AssetBundler.FileSystem.Operations
import Mathlib.Data.List.Basic

/-!
Ways without links. A way that meets no link ends at a place that its steps alone tell, and every
location on the way is a directory.
-/

namespace AssetBundler

namespace Tree

/-- A step that is taken without a look at the tree. -/
def advance (here : Location) (step : String) : Location :=
  if step = "." then here else if step = ".." then here.dropLast else here ++ [step]

/-- Where steps lead to when no link stands on the way. -/
def placeFrom (start : Location) (steps : List String) : Location := steps.foldl advance start

/-- The locations that are entered by their names on the way. -/
def enteredFrom (start : Location) : List String → List Location
  | [] => []
  | step :: rest =>
      if step = "." ∨ step = ".." then enteredFrom (advance start step) rest
      else (start ++ [step]) :: enteredFrom (start ++ [step]) rest

theorem enteredFrom_concat (start : Location) (steps : List String) (step : String) :
    enteredFrom start (steps ++ [step]) =
      enteredFrom start steps ++
        if step = "." ∨ step = ".." then [] else [placeFrom start steps ++ [step]] := by
  induction steps generalizing start with
  | nil => by_cases plain : step = "." ∨ step = ".." <;> simp [enteredFrom, placeFrom, plain]
  | cons first rest inductionHypothesis =>
      simp only [List.cons_append, enteredFrom, inductionHypothesis]
      by_cases plain : first = "." ∨ first = ".."
      · simp [plain, placeFrom]
      · simp [placeFrom, advance, not_or.mp plain]

/-- No link stands at any of the locations. -/
def IsClear (tree : Tree) (locations : List Location) : Prop :=
  ∀ location ∈ locations, ∀ target, tree.get? location ≠ some (.link target)

/-- A tree without links. -/
def IsLinkFree (tree : Tree) : Prop := ∀ location target, tree.get? location ≠ some (.link target)

theorem IsLinkFree.isClear {tree : Tree} (free : tree.IsLinkFree) (locations : List Location) :
    tree.IsClear locations := fun location _ target => free location target

/-- The directories among the locations are directories of the other tree too. -/
def KeepsDirectories (tree other : Tree) (locations : List Location) : Prop :=
  ∀ location ∈ locations, tree.get? location = some .directory →
    other.get? location = some .directory

/-- A tree as a disk holds it. Everything stands in a directory, and no name is a step or holds a
null character. -/
structure IsSound (tree : Tree) : Prop where
  parent : ∀ location node, tree.get? location = some node →
    tree.get? location.dropLast = some .directory
  named : ∀ location node, tree.get? location = some node →
    ∀ name ∈ location, name ≠ "." ∧ name ≠ ".." ∧ '\x00' ∉ name.toList

theorem mem_of_look {nodes : List (Location × Node)} {location : Location} {node : Node}
    (found : look nodes location = some node) : (location, node) ∈ nodes := by
  induction nodes with
  | nil => cases found
  | cons entry rest inductionHypothesis =>
      rw [look] at found
      split at found
      · rename_i same
        cases found
        rw [← same]
        exact List.mem_cons_self
      · exact List.mem_cons_of_mem entry (inductionHypothesis found)

/-- A tree is sound when each entry of its table is. -/
theorem sound_of_nodes {tree : Tree}
    (each : ∀ entry ∈ tree.nodes, tree.get? entry.1.dropLast = some .directory ∧
      ∀ name ∈ entry.1, name ≠ "." ∧ name ≠ ".." ∧ '\x00' ∉ name.toList) : tree.IsSound := by
  have entry {location : Location} {node : Node} (found : tree.get? location = some node)
      (below : location ≠ []) : (location, node) ∈ tree.nodes := by
    rw [get?, if_neg below] at found
    exact mem_of_look found
  constructor
  · intro location node found
    by_cases root : location = []
    · rw [root]
      rfl
    · exact (each _ (entry found root)).1
  · intro location node found name member
    by_cases root : location = []
    · rw [root] at member
      cases member
    · exact (each _ (entry found root)).2 name member

def isLinkNode : Node → Bool
  | .link _ => true
  | _ => false

/-- A tree is free of links when its table is. -/
theorem isLinkFree_of_nodes {tree : Tree}
    (each : ∀ entry ∈ tree.nodes, isLinkNode entry.2 = false) : tree.IsLinkFree := by
  intro location target found
  rw [get?] at found
  split at found
  · cases found
  · cases each _ (mem_of_look found)

section Steps

variable {tree : Tree} {follows : Bool}
  {enter : Location → List String → Except Refusal Location} {start : Location} {step : String}
  (notHere : step ≠ ".") (notUp : step ≠ "..") (fits : ¬ nameLimit < Utf8.size step)
include notHere notUp fits

/-- A way may end at anything but a link. -/
theorem walkSteps_last (ending : tree.IsClear [start ++ [step]]) :
    walkSteps tree follows enter start [step] = .ok (start ++ [step]) := by
  rw [walkSteps, if_neg notHere, if_neg notUp, if_neg fits]
  cases found : tree.get? (start ++ [step]) with
  | none => simp [found]
  | some node =>
      cases node with
      | directory => simp [found, walkSteps]
      | file contents => simp [found]
      | link target => exact absurd found (ending _ List.mem_cons_self target)

/-- A way goes on through a directory. -/
theorem walkSteps_directory (entered : tree.get? (start ++ [step]) = some .directory)
    (rest : List String) :
    walkSteps tree follows enter start (step :: rest) =
      walkSteps tree follows enter (start ++ [step]) rest := by
  rw [walkSteps, if_neg notHere, if_neg notUp, if_neg fits]
  simp only [entered]

end Steps

section Walking

variable {tree other : Tree} {follows otherFollows : Bool}
  {enter otherEnter : Location → List String → Except Refusal Location}
  {start location : Location} {steps : List String}
  (clear : tree.IsClear (enteredFrom start steps))
include clear

/-- A way ends at its place, and before the end it only leads through directories. -/
theorem walkSteps_place (walked : walkSteps tree follows enter start steps = .ok location) :
    location = placeFrom start steps ∧
      ∀ passed ∈ enteredFrom start steps,
        passed = location ∨ tree.get? passed = some .directory := by
  fun_induction walkSteps tree follows enter start steps with
  | case1 start =>
      cases walked
      exact ⟨rfl, by simp [enteredFrom]⟩
  | case2 start rest inductionHypothesis => exact inductionHypothesis clear walked
  | case3 start rest notHere inductionHypothesis => exact inductionHypothesis clear walked
  | case5 start step notHere notUp _ here free =>
      rw [← Except.ok.inj walked]
      simp [enteredFrom, placeFrom, advance, notHere, notUp, here]
  | case7 start step rest notHere notUp _ here entered inductionHypothesis =>
      simp only [enteredFrom, notHere, notUp, or_self, if_false] at clear ⊢
      obtain ⟨ends, passes⟩ := inductionHypothesis
        (fun passed member => clear passed (List.mem_cons_of_mem _ member)) walked
      refine ⟨?_, ?_⟩
      · simpa [placeFrom, advance, notHere, notUp] using ends
      · intro passed member
        rcases List.mem_cons.mp member with same | later
        · exact Or.inr (same ▸ entered)
        · exact passes passed later
  | case8 start step notHere notUp _ here contents isFile =>
      rw [← Except.ok.inj walked]
      simp [enteredFrom, placeFrom, advance, notHere, notUp, here]
  | case4 | case6 | case9 => cases walked
  | case10 start step rest notHere notUp _ here target isLink last
  | case11 start step rest notHere notUp _ here target isLink last =>
      simp only [enteredFrom, notHere, notUp, or_self, if_false] at clear
      exact absurd isLink (clear here List.mem_cons_self target)

/-- A way can be gone in each tree that has the directories on it, if no link stands at its end. -/
theorem walkSteps_transfer (walked : walkSteps tree follows enter start steps = .ok location)
    (kept : tree.KeepsDirectories other (enteredFrom start steps))
    (ending : other.IsClear [location]) :
    walkSteps other otherFollows otherEnter start steps = .ok location := by
  fun_induction walkSteps tree follows enter start steps with
  | case1 start => exact walked
  | case2 start rest inductionHypothesis =>
      rw [walkSteps_here]
      exact inductionHypothesis clear walked kept
  | case3 start rest notHere inductionHypothesis =>
      rw [walkSteps_up]
      exact inductionHypothesis clear walked kept
  | case5 start step notHere notUp fits here free =>
      rw [← Except.ok.inj walked] at ending ⊢
      exact walkSteps_last notHere notUp fits ending
  | case7 start step rest notHere notUp fits here entered inductionHypothesis =>
      simp only [enteredFrom, notHere, notUp, or_self, if_false] at clear kept
      rw [walkSteps_directory notHere notUp fits (kept _ List.mem_cons_self entered)]
      exact inductionHypothesis
        (fun passed member => clear passed (List.mem_cons_of_mem _ member)) walked
        (fun passed member => kept passed (List.mem_cons_of_mem _ member))
  | case8 start step notHere notUp fits here contents isFile =>
      rw [← Except.ok.inj walked] at ending ⊢
      exact walkSteps_last notHere notUp fits ending
  | case4 | case6 | case9 => cases walked
  | case10 start step rest notHere notUp _ here target isLink last
  | case11 start step rest notHere notUp _ here target isLink last =>
      simp only [enteredFrom, notHere, notUp, or_self, if_false] at clear
      exact absurd isLink (clear here List.mem_cons_self target)

/-- A name that is too long is met in each tree that has the directories before it. -/
theorem walkSteps_tooLong
    (walked : walkSteps tree follows enter start steps = .error .nameTooLong)
    (kept : tree.KeepsDirectories other (enteredFrom start steps)) :
    walkSteps other otherFollows otherEnter start steps = .error .nameTooLong := by
  fun_induction walkSteps tree follows enter start steps with
  | case1 => cases walked
  | case2 start rest inductionHypothesis =>
      rw [walkSteps_here]
      exact inductionHypothesis clear walked kept
  | case3 start rest notHere inductionHypothesis =>
      rw [walkSteps_up]
      exact inductionHypothesis clear walked kept
  | case4 start step rest notHere notUp long =>
      rw [walkSteps_of_long _ notHere notUp long]
  | case7 start step rest notHere notUp fits here entered inductionHypothesis =>
      simp only [enteredFrom, notHere, notUp, or_self, if_false] at clear kept
      rw [walkSteps_directory notHere notUp fits (kept _ List.mem_cons_self entered)]
      exact inductionHypothesis
        (fun passed member => clear passed (List.mem_cons_of_mem _ member)) walked
        (fun passed member => kept passed (List.mem_cons_of_mem _ member))
  | case5 | case6 | case8 | case9 | case10 => cases walked
  | case11 start step rest notHere notUp _ here target isLink last =>
      simp only [enteredFrom, notHere, notUp, or_self, if_false] at clear
      exact absurd isLink (clear here List.mem_cons_self target)

/-- A way from a directory of a sound tree ends at a directory, or with a name in a directory. -/
theorem ending_of_walkSteps (sound : tree.IsSound)
    (starts : tree.get? start = some .directory)
    (walked : walkSteps tree follows enter start steps = .ok location) :
    tree.get? location = some .directory ∨
      ∃ before name, location = before ++ [name] ∧ tree.get? before = some .directory ∧
        location ∈ enteredFrom start steps ∧ name ∈ steps ∧ name ≠ "." ∧ name ≠ ".." := by
  fun_induction walkSteps tree follows enter start steps with
  | case1 start =>
      cases walked
      exact Or.inl starts
  | case2 start rest inductionHypothesis =>
      rcases inductionHypothesis clear starts walked with
        directory | ⟨before, name, same, inside, passed, later, isName⟩
      · exact Or.inl directory
      · exact Or.inr ⟨before, name, same, inside, passed, List.mem_cons_of_mem _ later, isName⟩
  | case3 start rest notHere inductionHypothesis =>
      have above := sound.parent start _ starts
      rcases inductionHypothesis clear above walked with
        directory | ⟨before, name, same, inside, passed, later, isName⟩
      · exact Or.inl directory
      · exact Or.inr ⟨before, name, same, inside, passed, List.mem_cons_of_mem _ later, isName⟩
  | case5 start step notHere notUp _ here
  | case8 start step notHere notUp _ here =>
      rw [← Except.ok.inj walked]
      refine Or.inr ⟨start, step, rfl, starts, ?_, List.mem_cons_self, notHere, notUp⟩
      simp [enteredFrom, notHere, notUp, here]
  | case7 start step rest notHere notUp _ here entered inductionHypothesis =>
      simp only [enteredFrom, notHere, notUp, or_self, if_false] at clear ⊢
      rcases inductionHypothesis (fun passed member => clear passed (List.mem_cons_of_mem _ member))
        entered walked with directory | ⟨before, name, same, inside, passed, later, isName⟩
      · exact Or.inl directory
      · refine Or.inr ⟨before, name, same, inside, List.mem_cons_of_mem _ passed, ?_, isName⟩
        exact List.mem_cons_of_mem step later
  | case4 | case6 | case9 => cases walked
  | case10 start step rest notHere notUp _ here target isLink last
  | case11 start step rest notHere notUp _ here target isLink last =>
      simp only [enteredFrom, notHere, notUp, or_self, if_false] at clear
      exact absurd isLink (clear here List.mem_cons_self target)

/-- A name that is too long is only met in a directory. -/
theorem exists_of_walkSteps_tooLong (sound : tree.IsSound)
    (starts : tree.get? start = some .directory)
    (walked : walkSteps tree follows enter start steps = .error .nameTooLong) :
    ∃ before name rest, steps = before ++ name :: rest ∧ name ≠ "." ∧ name ≠ ".." ∧
      nameLimit < Utf8.size name ∧ tree.get? (placeFrom start before) = some .directory := by
  fun_induction walkSteps tree follows enter start steps with
  | case2 start rest inductionHypothesis =>
      obtain ⟨before, name, later, rfl, isName⟩ := inductionHypothesis clear starts walked
      exact ⟨"." :: before, name, later, rfl, isName⟩
  | case3 start rest notHere inductionHypothesis =>
      obtain ⟨before, name, later, rfl, isName⟩ :=
        inductionHypothesis clear (sound.parent start _ starts) walked
      exact ⟨".." :: before, name, later, rfl, isName⟩
  | case4 start step rest notHere notUp long =>
      exact ⟨[], step, rest, rfl, notHere, notUp, long, starts⟩
  | case7 start step rest notHere notUp _ here entered inductionHypothesis =>
      simp only [enteredFrom, notHere, notUp, or_self, if_false] at clear
      obtain ⟨before, name, later, rfl, notHereName, notUpName, long, ends⟩ := inductionHypothesis
        (fun passed member => clear passed (List.mem_cons_of_mem _ member)) entered walked
      refine ⟨step :: before, name, later, rfl, notHereName, notUpName, long, ?_⟩
      rw [placeFrom, List.foldl_cons, advance, if_neg notHere, if_neg notUp]
      exact ends
  | case1 | case5 | case6 | case8 | case9 | case10 => cases walked
  | case11 start step rest notHere notUp _ here target isLink last =>
      simp only [enteredFrom, notHere, notUp, or_self, if_false] at clear
      exact absurd isLink (clear here List.mem_cons_self target)

/-- A way that ends with a step up ends at a directory. -/
theorem directory_of_walkSteps_up {before : List String} (sound : tree.IsSound)
    (starts : tree.get? start = some .directory) (isUp : steps = before ++ [".."])
    (walked : walkSteps tree follows enter start steps = .ok location) :
    tree.get? location = some .directory := by
  subst isUp
  induction before generalizing start with
  | nil =>
      rw [List.nil_append, walkSteps_up, walkSteps] at walked
      rw [← Except.ok.inj walked]
      exact sound.parent start _ starts
  | cons step rest inductionHypothesis =>
      have more : rest ++ [".."] ≠ [] := by simp
      rw [List.cons_append] at clear walked
      rw [enteredFrom] at clear
      by_cases plain : step = "." ∨ step = ".."
      · rw [if_pos plain] at clear
        rcases plain with rfl | rfl
        · rw [walkSteps_here] at walked
          exact inductionHypothesis starts clear walked
        · rw [walkSteps_up] at walked
          exact inductionHypothesis (sound.parent start _ starts) clear walked
      · rw [if_neg plain] at clear
        obtain ⟨notHere, notUp⟩ := not_or.mp plain
        rw [walkSteps, if_neg notHere, if_neg notUp] at walked
        split at walked
        · cases walked
        · simp only [more, if_false, false_and] at walked
          split at walked
          · cases walked
          · rename_i entered
            exact inductionHypothesis entered
              (fun passed member => clear passed (List.mem_cons_of_mem _ member)) walked
          · cases walked
          · rename_i target isLink
            exact absurd isLink (clear _ List.mem_cons_self target)

end Walking

/-- A name that is too long is refused behind directories. -/
theorem walkSteps_of_tooLong {tree : Tree} {follows : Bool}
    {enter : Location → List String → Except Refusal Location} {start : Location}
    {before : List String} {name : String}
    (directories : ∀ passed ∈ enteredFrom start before, tree.get? passed = some .directory)
    (notHere : name ≠ ".") (notUp : name ≠ "..") (long : nameLimit < Utf8.size name)
    (rest : List String) :
    walkSteps tree follows enter start (before ++ name :: rest) = .error .nameTooLong := by
  induction before generalizing start with
  | nil => rw [List.nil_append, walkSteps_of_long _ notHere notUp long]
  | cons step others inductionHypothesis =>
      rw [List.cons_append]
      rw [enteredFrom] at directories
      by_cases plain : step = "." ∨ step = ".."
      · rw [if_pos plain] at directories
        rcases plain with rfl | rfl
        · rw [walkSteps_here]
          exact inductionHypothesis directories
        · rw [walkSteps_up]
          exact inductionHypothesis directories
      · rw [if_neg plain] at directories
        obtain ⟨stepNotHere, stepNotUp⟩ := not_or.mp plain
        by_cases fits : nameLimit < Utf8.size step
        · rw [walkSteps_of_long _ stepNotHere stepNotUp fits]
        · rw [walkSteps_directory stepNotHere stepNotUp fits
            (directories _ List.mem_cons_self)]
          exact inductionHypothesis fun passed member =>
            directories passed (List.mem_cons_of_mem _ member)

end Tree

end AssetBundler
