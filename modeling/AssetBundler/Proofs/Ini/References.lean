import AssetBundler.Ini.Interpolation
import AssetBundler.Proofs.Failure.Outcome
import Mathlib.Logic.Relation

/-!
References between values. A value cannot be had for want of a value only when it leads, from
reference to reference, to an option that is given without one.
-/

namespace AssetBundler.Ini

/-- An option of a section. -/
abbrev Place := String × String

/-- A text in a section refers to a place. It is read from left to right, and a doubled dollar sign
starts no reference. -/
inductive Refers (section_ : String) : List Char → Place → Prop
  | skip {c : Char} {rest : List Char} {place : Place} :
      c ≠ '$' → Refers section_ rest place → Refers section_ (c :: rest) place
  | dollar {behind : List Char} {place : Place} :
      Refers section_ behind place → Refers section_ ('$' :: '$' :: behind) place
  | here {inner name behind : List Char} {place : Place} :
      closeReference? inner = some (name, behind) →
        resolveReference section_ name behind = .ok place →
          Refers section_ ('$' :: '\x7b' :: inner) place
  | later {inner name behind : List Char} {place : Place} :
      closeReference? inner = some (name, behind) → Refers section_ behind place →
        Refers section_ ('$' :: '\x7b' :: inner) place

namespace Document

variable (document : Document)

/-- The value of one place refers to the other one. -/
def LeadsTo (place other : Place) : Prop :=
  ∃ raw, document.raw? place.1 place.2 = some (some raw) ∧ Refers place.1 raw.toList other

/-- An option that is given without a value. -/
def IsValueless (place : Place) : Prop := document.raw? place.1 place.2 = some none

/-- References lead from a place to an option without a value. -/
def LeadsNowhere (place : Place) : Prop :=
  ∃ last, Relation.TransGen document.LeadsTo place last ∧ document.IsValueless last

end Document

variable {document : Document}

/-- A place without a value, or one from which the references fail in turn. -/
def Fails (document : Document)
    (follow : String → String → String → Except ReferenceFault (List Char)) (place : Place) :
    Prop :=
  document.IsValueless place ∨ ∃ value, document.raw? place.1 place.2 = some (some value) ∧
    follow place.1 place.2 value = .error .valueless

open Outcome in
/-- A text that fails for want of a value refers to a place that fails. -/
theorem failsOnly_substituteText
    {follow : String → String → String → Except ReferenceFault (List Char)}
    {section_ option raw : String} (text : List Char) :
    FailsOnly (fun fault => fault = .valueless →
        ∃ place, Refers section_ text place ∧ Fails document follow place)
      (substituteText document follow section_ option raw text) := by
  have mapped {place : List Char → List Char} {kind : ReferenceFault → Prop}
      {outcome : Except ReferenceFault (List Char)} (fails : FailsOnly kind outcome) :
      FailsOnly kind (outcome.map place) := fails.bind fun _ => FailsOnly.ok _
  fun_induction substituteText document follow section_ option raw text with
  | case1 => exact FailsOnly.ok []
  | case2 c rest other inductionHypothesis =>
      refine (mapped inductionHypothesis).imp fun fault cause isValueless => ?_
      obtain ⟨place, refers, fails⟩ := cause isValueless
      exact ⟨place, .skip other refers, fails⟩
  | case3 c isDollar behind inductionHypothesis =>
      obtain rfl := not_not.mp isDollar
      refine (mapped inductionHypothesis).imp fun fault cause isValueless => ?_
      obtain ⟨place, refers, fails⟩ := cause isValueless
      exact ⟨place, .dollar refers, fails⟩
  | case4 => exact FailsOnly.error fun isValueless => absurd isValueless (by simp)
  | case5 c isDollar inner name behind found inductionHypothesis =>
      obtain rfl := not_not.mp isDollar
      cases resolved : resolveReference section_ name behind with
      | error fault =>
          refine FailsOnly.error ?_
          rintro rfl
          unfold resolveReference at resolved
          split at resolved <;> cases resolved
      | ok place =>
          have refers : Refers section_ ('$' :: '\x7b' :: inner) place := .here found resolved
          have finish (image : List Char) : FailsOnly (fun fault => fault = .valueless →
              ∃ place, Refers section_ ('$' :: '\x7b' :: inner) place ∧ Fails document follow place)
              (do
                let images ← substituteText document follow section_ option raw behind
                return image ++ images) := by
            refine (inductionHypothesis.imp fun fault cause isValueless => ?_).bind fun _ =>
              FailsOnly.ok _
            obtain ⟨place, refers, fails⟩ := cause isValueless
            exact ⟨place, .later found refers, fails⟩
          simp only [bind, Except.bind]
          cases value : document.raw? place.1 place.2 with
          | none => exact FailsOnly.error fun isValueless => absurd isValueless (by simp)
          | some shown =>
              cases shown with
              | none => exact FailsOnly.error fun _ => ⟨place, refers, .inl value⟩
              | some text =>
                  simp only
                  split
                  · cases followed : follow place.1 place.2 text with
                    | error fault =>
                        refine FailsOnly.error fun isValueless => ⟨place, refers, .inr ?_⟩
                        rw [isValueless] at followed
                        exact ⟨text, value, followed⟩
                    | ok image => exact finish image
                  · exact finish text.toList
  | case6 => exact FailsOnly.error fun isValueless => absurd isValueless (by simp)

/-- A value that fails for want of a value leads nowhere. -/
theorem leadsNowhere_of_substitute {depth : Nat} {section_ option raw : String}
    (holds : document.raw? section_ option = some (some raw))
    (failed : substitute document depth section_ option raw = .error .valueless) :
    document.LeadsNowhere (section_, option) := by
  induction depth generalizing section_ option raw with
  | zero => cases failed
  | succ depth inductionHypothesis =>
      obtain ⟨place, refers, fails⟩ := failsOnly_substituteText raw.toList _ failed rfl
      have step : document.LeadsTo (section_, option) place := ⟨raw, holds, refers⟩
      rcases fails with valueless | ⟨value, found, followed⟩
      · exact ⟨place, .single step, valueless⟩
      · obtain ⟨last, way, valueless⟩ := inductionHypothesis found followed
        exact ⟨last, .head step way, valueless⟩

theorem leadsNowhere_of_value {section_ option : String}
    (failed : document.value section_ option = .error .valueless) :
    document.LeadsNowhere (section_, option) := by
  unfold Document.value at failed
  split at failed
  · cases failed
  · cases failed
  · next raw holds =>
    cases text : substitute document depthLimit section_ option raw with
    | ok text' =>
        rw [text] at failed
        cases failed
    | error fault =>
        rw [text] at failed
        cases failed
        exact leadsNowhere_of_substitute holds text

end AssetBundler.Ini
