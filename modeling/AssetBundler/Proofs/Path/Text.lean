import AssetBundler.Path
import AssetBundler.Proofs.Text.Lines
import Mathlib.Data.List.Basic

/-!
Texts of paths. The text of a path that continues another one continues its text.
-/

namespace AssetBundler.Path

theorem size_intercalate_append (texts more : List String) :
    Utf8.size ("/".intercalate texts) ≤ Utf8.size ("/".intercalate (texts ++ more)) := by
  induction texts with
  | nil => exact Nat.zero_le _
  | cons text rest inductionHypothesis =>
      cases rest with
      | nil =>
          cases more with
          | nil => exact Nat.le_refl _
          | cons next others =>
              simp only [List.singleton_append, String.intercalate_cons_cons,
                String.intercalate_singleton, Utf8.size, String.utf8ByteSize_append]
              omega
      | cons next others =>
          simp only [List.cons_append, String.intercalate_cons_cons, Utf8.size,
            String.utf8ByteSize_append] at inductionHypothesis ⊢
          omega

theorem toString_eq {path : Path} (absolute : path.isAbsolute = true) :
    path.toString = path.anchor.text ++ "/".intercalate path.parts := by
  have filled : path.anchor.text ++ "/".intercalate path.parts ≠ "" := by
    intro empty
    have anchored : path.anchor.text = "" := (String.append_eq_empty_iff.mp empty).1
    cases anchor : path.anchor <;> simp [isAbsolute, Anchor.text, anchor] at absolute anchored
  rw [toString, if_neg filled]

/-- The text of a path is at least as long as that of its parent. -/
theorem size_parent {path : Path} (absolute : path.isAbsolute = true) :
    Utf8.size path.parent.toString ≤ Utf8.size path.toString := by
  have shorter : Utf8.size ("/".intercalate path.parts.dropLast) ≤
      Utf8.size ("/".intercalate path.parts) := by
    obtain ⟨more, whole⟩ := List.dropLast_prefix path.parts
    conv_rhs => rw [← whole]
    exact size_intercalate_append path.parts.dropLast more
  rw [toString_eq absolute, @toString_eq path.parent absolute]
  simp only [parent, Utf8.size, String.utf8ByteSize_append] at shorter ⊢
  omega

/-- A path that continues a base by the steps to something below it. -/
def below (base : Path) (steps : List String) : Path := ⟨base.anchor, base.parts ++ steps⟩

/-- The text before what stands below a base. -/
def lead (base : Path) : String :=
  base.anchor.text ++
    if base.parts = [] then "" else "/".intercalate base.parts ++ "/"

theorem intercalate_append {texts more : List String} (filled : texts ≠ []) (others : more ≠ []) :
    "/".intercalate (texts ++ more) = "/".intercalate texts ++ "/" ++ "/".intercalate more := by
  induction texts with
  | nil => exact absurd rfl filled
  | cons text rest inductionHypothesis =>
      cases rest with
      | nil =>
          obtain ⟨next, later, rfl⟩ := List.exists_cons_of_ne_nil others
          rw [List.singleton_append, String.intercalate_cons_cons, String.intercalate_singleton]
      | cons next later =>
          rw [List.cons_append, List.cons_append, String.intercalate_cons_cons,
            String.intercalate_cons_cons, ← List.cons_append,
            inductionHypothesis (List.cons_ne_nil next later)]
          simp only [String.append_assoc]

theorem toString_below {base : Path} (absolute : base.isAbsolute = true) {steps : List String}
    (deeper : steps ≠ []) : (base.below steps).toString = base.lead ++ "/".intercalate steps := by
  have absoluteBelow : (base.below steps).isAbsolute = true := absolute
  rw [toString_eq absoluteBelow, below, lead]
  by_cases root : base.parts = []
  · rw [if_pos root, root, List.nil_append, String.append_empty]
  · rw [if_neg root, intercalate_append root deeper]
    simp only [String.append_assoc]

/-- A point among the parts takes two octets. -/
theorem size_intercalate_point (before after : List String) :
    Utf8.size ("/".intercalate (before ++ "." :: after)) ≤
      Utf8.size ("/".intercalate (before ++ after)) + 2 := by
  have point : Utf8.size "." = 1 := rfl
  have slash : Utf8.size "/" = 1 := rfl
  simp only [Utf8.size] at point slash ⊢
  by_cases start : before = []
  · subst start
    cases after with
    | nil => simp [point]
    | cons next later =>
        simp only [List.nil_append, String.intercalate_cons_cons, String.utf8ByteSize_append, point,
          slash]
        omega
  · rw [intercalate_append start (List.cons_ne_nil "." after)]
    cases after with
    | nil => simp [String.utf8ByteSize_append, point, slash]
    | cons next later =>
        rw [intercalate_append start (List.cons_ne_nil next later), String.intercalate_cons_cons]
        simp only [String.utf8ByteSize_append, point, slash]
        omega

theorem size_intercalate_points (before steps : List String) :
    Utf8.size ("/".intercalate (before ++ steps)) ≤
      Utf8.size ("/".intercalate (before ++ steps.filter (· != "."))) + 2 * steps.count "." := by
  induction steps generalizing before with
  | nil => simp
  | cons step rest inductionHypothesis =>
      by_cases point : step = "."
      · subst point
        have fewer := inductionHypothesis before
        have longer := size_intercalate_point before rest
        simp only [bne_self_eq_false, Bool.false_eq_true, not_false_eq_true,
          List.filter_cons_of_neg, List.count_cons_self]
        omega
      · have later := inductionHypothesis (before ++ [step])
        simpa [point] using later

/-- The points among the steps below a base make its text longer by two octets each. -/
theorem size_below_le {base : Path} (absolute : base.isAbsolute = true) (steps : List String) :
    Utf8.size (base.below steps).toString ≤
      Utf8.size (base.below (steps.filter (· != "."))).toString + 2 * steps.count "." := by
  have points := size_intercalate_points base.parts steps
  rw [@toString_eq (base.below steps) absolute,
    @toString_eq (base.below (steps.filter (· != "."))) absolute]
  simp only [below, Utf8.size, String.utf8ByteSize_append] at points ⊢
  omega

/-- Each part takes an octet at least, be it for the slash before it. -/
theorem length_parts_le {path : Path} (absolute : path.isAbsolute = true) :
    path.parts.length ≤ Utf8.size path.toString := by
  have joined (texts : List String) :
      texts.length ≤ Utf8.size ("/".intercalate texts) + 1 := by
    induction texts with
    | nil => exact Nat.zero_le _
    | cons text rest inductionHypothesis =>
        cases rest with
        | nil => simp
        | cons next others =>
            have slash : Utf8.size "/" = 1 := rfl
            rw [String.intercalate_cons_cons]
            simp only [Utf8.size, String.utf8ByteSize_append, List.length_cons]
              at inductionHypothesis slash ⊢
            omega
  have anchored : 1 ≤ Utf8.size path.anchor.text := by
    cases anchor : path.anchor
    · simp [isAbsolute, anchor] at absolute
    · decide +kernel
    · decide +kernel
  have whole := joined path.parts
  rw [toString_eq absolute]
  simp only [Utf8.size, String.utf8ByteSize_append] at whole anchored ⊢
  omega

theorem below_append (base : Path) (steps more : List String) :
    base.below (steps ++ more) = (base.below steps).below more := by
  rw [below, below, below, List.append_assoc]

section Endings

theorem getLast?_lead {base : Path} (absolute : base.isAbsolute = true) :
    base.lead.toList.getLast? = some '/' := by
  rw [lead]
  split
  · cases anchor : base.anchor
    · simp [isAbsolute, anchor] at absolute
    · rfl
    · rfl
  · rw [← String.append_assoc, String.toList_append]
    exact List.getLast?_concat

/-- An ending without a slash lies behind the last slash. -/
theorem suffix_append_iff {ending before name : List Char} (closed : before.getLast? = some '/')
    (noSlash : '/' ∉ ending) : ending <:+ before ++ name ↔ ending <:+ name := by
  constructor
  · intro ends
    rcases List.suffix_or_suffix_of_suffix ends (List.suffix_append before name) with
      inside | ⟨front, rfl⟩
    · exact inside
    · have early : front <:+ before := List.suffix_append_self_iff.mp ends
      rcases List.eq_nil_or_concat front with rfl | ⟨more, last, rfl⟩
      · exact List.suffix_rfl
      · obtain ⟨start, rfl⟩ := early
        rw [List.concat_eq_append] at closed noSlash
        rw [← List.append_assoc, List.getLast?_concat] at closed
        cases closed
        exact absurd (by simp) noSlash
  · intro ends
    exact ends.trans (List.suffix_append before name)

/-- The text of a path ends like its name. -/
theorem endsWith_toString_iff {path : Path} {ending : String} (absolute : path.isAbsolute = true)
    (named : path.parts ≠ []) (noSlash : '/' ∉ ending.toList) :
    path.toString.endsWith ending = true ↔ ending.toList <:+ path.name.toList := by
  have whole : path = path.parent.below [path.name] := by
    have last : path.name = path.parts.getLast named := by
      rw [name, List.getLast?_eq_some_getLast named, Option.getD_some]
    rw [below, parent, last, List.dropLast_append_getLast named]
  have text : path.toString = path.parent.lead ++ path.name := by
    have absoluteParent : path.parent.isAbsolute = true := absolute
    conv_lhs => rw [whole]
    rw [toString_below absoluteParent (List.cons_ne_nil _ _), String.intercalate_singleton]
  rw [Text.endsWith_iff, text, String.toList_append]
  exact suffix_append_iff (getLast?_lead absolute) noSlash

end Endings

end AssetBundler.Path
