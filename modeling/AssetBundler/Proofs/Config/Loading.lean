import AssetBundler.Config.Basic
import AssetBundler.Proofs.Ini.Continuation
import AssetBundler.Workspace

/-!
Loading of a configuration that exists. It is the document of the octets, or the fault in them.
-/

namespace AssetBundler.Config

variable {tree : Tree} {here : Location} {path : Path} {bytes : Bytes}

theorem hasNode_of_read (holds : tree.read here path = .ok bytes) :
    tree.hasNode here path = .ok true := by
  unfold Tree.read at holds
  split at holds
  · cases holds
  · next clean =>
    unfold Tree.hasNode Tree.probe
    rw [if_neg clean]
    cases status : tree.status here path with
    | ok node => rfl
    | error refusal =>
        rw [status] at holds
        cases holds

theorem load_of_read (holds : tree.read here path = .ok bytes) :
    load tree here path =
      match Ini.ofBytes bytes with
      | .ok document => .ok ⟨document⟩
      | .error fault => .error (Failure.ofDocument path fault) := by
  simp only [load, hasNode_of_read holds, holds]
  cases Ini.ofBytes bytes <;> rfl

theorem load_continued_iff (holds : tree.read here path = .ok bytes) :
    load tree here path = .error .continuedName ↔
      Ini.Reader.ContinuesBare {} 1 (Ini.linesOf bytes) := by
  rw [← Ini.ofBytes_continued_iff, load_of_read holds]
  cases Ini.ofBytes bytes with
  | ok document => simp
  | error fault =>
      cases fault with
      | undecodable fault => simp [Failure.ofDocument]
      | line fault => cases fault <;> simp [Failure.ofDocument]

theorem load_undecodable_iff (holds : tree.read here path = .ok bytes) :
    (∃ fault, load tree here path = .error (.undecodable fault)) ↔ Ini.BreaksOff bytes := by
  rw [← Ini.ofBytes_undecodable_iff, load_of_read holds]
  cases Ini.ofBytes bytes with
  | ok document => simp
  | error fault =>
      cases fault with
      | undecodable fault => simp [Failure.ofDocument]
      | line fault => cases fault <;> simp [Failure.ofDocument]

/-- A configuration that is not loaded has one of these failures. -/
theorem load_error (holds : tree.read here path = .ok bytes) {failure : Failure}
    (failed : load tree here path = .error failure) :
    (∃ fault, failure = .config (.malformed path fault)) ∨ failure = .continuedName ∨
      ∃ fault, failure = .undecodable fault := by
  rw [load_of_read holds] at failed
  cases read : Ini.ofBytes bytes with
  | ok document =>
      rw [read] at failed
      cases failed
  | error fault =>
      rw [read] at failed
      cases failed
      cases fault with
      | undecodable fault => exact .inr (.inr ⟨fault, rfl⟩)
      | line fault =>
          cases fault with
          | continuedName => exact .inr (.inl rfl)
          | _ => exact .inl ⟨_, rfl⟩

section Sample

/-- A project with nothing but a configuration. -/
def lonely (bytes : Bytes) : Workspace where
  tree := ⟨[(["p"], .directory), (["p", configName], .file bytes)]⟩
  directory := ["p"]

def lonelyPath : Path := ⟨.root, ["p", configName]⟩

theorem load_lonely (bytes : Bytes) :
    load (lonely bytes).tree (lonely bytes).directory lonelyPath =
      match Ini.ofBytes bytes with
      | .ok document => .ok ⟨document⟩
      | .error fault => .error (Failure.ofDocument lonelyPath fault) :=
  load_of_read rfl

end Sample

end AssetBundler.Config
