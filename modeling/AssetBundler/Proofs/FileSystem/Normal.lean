import AssetBundler.Proofs.FileSystem.Agreement
import Mathlib.Data.List.TakeWhile

/-!
Normalized paths. An absolute path is normalized to the location that it names when no link stands
on its way.
-/

namespace AssetBundler

namespace Tree

theorem placeFrom_concat (start : Location) (steps : List String) (step : String) :
    placeFrom start (steps ++ [step]) = advance (placeFrom start steps) step :=
  List.foldl_concat advance start step steps

/-- Steps that are names are added to the start. -/
theorem placeFrom_names {steps : List String} (names : ∀ step ∈ steps, step ≠ "." ∧ step ≠ "..")
    (start : Location) : placeFrom start steps = start ++ steps := by
  induction steps generalizing start with
  | nil => exact (List.append_nil start).symm
  | cons step rest inductionHypothesis =>
      obtain ⟨notHere, notUp⟩ := names step List.mem_cons_self
      have later := inductionHypothesis (fun next member =>
        names next (List.mem_cons_of_mem _ member)) (start ++ [step])
      rw [placeFrom, List.foldl_cons, advance, if_neg notHere, if_neg notUp]
      rw [placeFrom] at later
      rw [later, List.append_assoc, List.singleton_append]

/-- A place consists of the start and of steps that are names. -/
theorem mem_placeFrom {start : Location} {steps : List String} {name : String}
    (member : name ∈ placeFrom start steps) :
    name ∈ start ∨ (name ∈ steps ∧ name ≠ "." ∧ name ≠ "..") := by
  induction steps generalizing start with
  | nil => exact Or.inl member
  | cons step rest inductionHypothesis =>
      rcases inductionHypothesis member with before | ⟨later, isName⟩
      · rw [advance] at before
        split at before
        · exact Or.inl before
        · split at before
          · exact Or.inl (List.dropLast_subset start before)
          · rename_i notHere notUp
            rcases List.mem_append.mp before with old | new
            · exact Or.inl old
            · rw [List.mem_singleton.mp new]
              exact Or.inr ⟨List.mem_cons_self, notHere, notUp⟩
      · exact Or.inr ⟨List.mem_cons_of_mem step later, isName⟩

end Tree

namespace Path

variable {path : Path}

/-- The parts are names of entries, without points for steps. -/
def IsPlain (path : Path) : Prop := ∀ part ∈ path.parts, part ≠ "." ∧ part ≠ ".."

theorem place_root (path : Path) : path.place [] = Tree.placeFrom [] path.parts := by
  rw [place, start, ite_self]

theorem entered_root (path : Path) : path.entered [] = Tree.enteredFrom [] path.parts := by
  rw [entered, start, ite_self]

/-- A plain path names the location of its parts. -/
theorem IsPlain.place_eq (plain : path.IsPlain) : path.place [] = path.parts := by
  rw [place_root, Tree.placeFrom_names plain, List.nil_append]

theorem mem_place {name : String} (member : name ∈ path.place []) :
    name ∈ path.parts ∧ name ≠ "." ∧ name ≠ ".." := by
  rw [place_root] at member
  exact (Tree.mem_placeFrom member).resolve_left List.not_mem_nil

/-- The stack of an absolute path is its place from the top down. -/
theorem foldl_pushPart {stack : List String} (level : ".." ∉ stack) (parts : List String) :
    (parts.foldl (pushPart true) stack).reverse = Tree.placeFrom stack.reverse parts := by
  induction parts generalizing stack with
  | nil => rfl
  | cons part rest inductionHypothesis =>
      rw [List.foldl_cons, Tree.placeFrom, List.foldl_cons, Tree.advance, pushPart.eq_def]
      by_cases here : part = "."
      · rw [if_pos here, if_pos here]
        exact inductionHypothesis level
      · rw [if_neg here, if_neg here]
        by_cases up : part = ".."
        · rw [if_neg (not_not.mpr up), if_pos up]
          cases stack with
          | nil => exact inductionHypothesis level
          | cons top below =>
              obtain ⟨notUp, levelBelow⟩ := not_or.mp fun among => level (List.mem_cons.mpr among)
              rw [List.reverse_cons, List.dropLast_concat]
              simp only [Ne.symm notUp, if_false]
              exact inductionHypothesis levelBelow
        · rw [if_pos up, if_neg up, ← List.reverse_cons]
          exact inductionHypothesis fun among =>
            (List.mem_cons.mp among).elim (Ne.symm up) level

theorem normalize_eq (absolute : path.isAbsolute = true) :
    path.normalize = ⟨path.anchor, cutAtNull (path.place [])⟩ := by
  rw [normalize, absolute, foldl_pushPart List.not_mem_nil, place_root]
  rfl

/-- A place without null characters is the normalized path. -/
theorem normalize_of_clean (absolute : path.isAbsolute = true)
    (clean : ∀ name ∈ path.place [], '\x00' ∉ name.toList) :
    path.normalize = ⟨path.anchor, path.place []⟩ := by
  rw [normalize_eq absolute, cutAtNull_eq clean]

/-- What a null character leaves of a part is no point, and it is the last part. -/
theorem mem_cutAtNull {parts : List String} {part : String} (member : part ∈ cutAtNull parts) :
    part ∈ parts ∨ isPart part = true := by
  induction parts with
  | nil => cases member
  | cons first rest inductionHypothesis =>
      rw [cutAtNull] at member
      split at member
      · exact Or.inr (List.mem_filter.mp member).2
      · rcases List.mem_cons.mp member with rfl | later
        · exact Or.inl List.mem_cons_self
        · exact (inductionHypothesis later).imp_left (List.mem_cons_of_mem first)

theorem mem_dropLast_cutAtNull {parts : List String} {part : String}
    (member : part ∈ (cutAtNull parts).dropLast) : part ∈ parts := by
  induction parts with
  | nil => cases member
  | cons first rest inductionHypothesis =>
      rw [cutAtNull] at member
      split at member
      · have short := List.length_filter_le isPart
          [String.ofList (first.toList.takeWhile (· != '\x00'))]
        have none : (([String.ofList (first.toList.takeWhile (· != '\x00'))].filter
            isPart).dropLast) = [] := by
          apply List.eq_nil_of_length_eq_zero
          rw [List.length_dropLast]
          rw [List.length_singleton] at short
          omega
        rw [none] at member
        cases member
      · by_cases last : cutAtNull rest = []
        · rw [last] at member
          cases member
        · rw [List.dropLast_cons_of_ne_nil last] at member
          rcases List.mem_cons.mp member with rfl | later
          · exact List.mem_cons_self
          · exact List.mem_cons_of_mem first (inductionHypothesis later)

/-- A normalized path has no part that is a point, and a step up can only be what a null character
has left of its last part. -/
theorem parts_normalize (absolute : path.isAbsolute = true) :
    "." ∉ path.normalize.parts ∧ ".." ∉ path.normalize.parts.dropLast := by
  rw [normalize_eq absolute]
  constructor
  · intro member
    rcases mem_cutAtNull member with inPlace | isPart
    · exact (mem_place inPlace).2.1 rfl
    · exact absurd isPart (by decide +kernel)
  · intro member
    exact (mem_place (mem_dropLast_cutAtNull member)).2.2 rfl

theorem null_not_mem_cutAtNull {parts : List String} {part : String}
    (member : part ∈ cutAtNull parts) : '\x00' ∉ part.toList := by
  induction parts with
  | nil => cases member
  | cons first rest inductionHypothesis =>
      rw [cutAtNull] at member
      split at member
      · rw [List.mem_singleton.mp (List.mem_of_mem_filter member), String.toList_ofList]
        intro inside
        simpa using List.mem_takeWhile_imp inside
      · rename_i whole
        rcases List.mem_cons.mp member with rfl | later
        · simpa using whole
        · exact inductionHypothesis later

theorem exists_of_mem_intercalate {texts : List String} {c : Char}
    (member : c ∈ ("/".intercalate texts).toList) :
    c = '/' ∨ ∃ text ∈ texts, c ∈ text.toList := by
  induction texts with
  | nil => cases member
  | cons first rest inductionHypothesis =>
      cases rest with
      | nil => exact Or.inr ⟨first, List.mem_cons_self, by simpa using member⟩
      | cons next others =>
          rw [String.intercalate_cons_cons, String.toList_append, String.toList_append] at member
          rcases List.mem_append.mp member with early | late
          · rcases List.mem_append.mp early with inFirst | isSlash
            · exact Or.inr ⟨first, List.mem_cons_self, inFirst⟩
            · exact Or.inl (by simpa using isSlash)
          · exact (inductionHypothesis late).imp_right fun ⟨text, isOther, inside⟩ =>
              ⟨text, List.mem_cons_of_mem first isOther, inside⟩

/-- A path whose parts hold no null character holds none. -/
theorem holdsNull_of_clean (clean : ∀ part ∈ path.parts, '\x00' ∉ part.toList) :
    Tree.holdsNull path = false := by
  have notAnchor : '\x00' ∉ path.anchor.text.toList := by
    cases path.anchor <;> decide
  rw [Tree.holdsNull, List.contains_eq_mem, decide_eq_false_iff_not, toString]
  split
  · decide
  · intro member
    rw [String.toList_append] at member
    rcases List.mem_append.mp member with inAnchor | inParts
    · exact notAnchor inAnchor
    · rcases exists_of_mem_intercalate inParts with isSlash | ⟨part, isPart, inside⟩
      · cases isSlash
      · exact clean part isPart inside

theorem holdsNull_normalize (absolute : path.isAbsolute = true) :
    Tree.holdsNull path.normalize = false := by
  rw [normalize_eq absolute]
  exact holdsNull_of_clean fun _ member => null_not_mem_cutAtNull member

end Path

end AssetBundler
