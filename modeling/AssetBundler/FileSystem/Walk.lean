import AssetBundler.FileSystem.Tree
import AssetBundler.Path

/-!
The way from a path to a location. Links are followed one by one, and a step up leaves the
directory that was reached.
-/

namespace AssetBundler

/-- Why a path cannot be used. -/
inductive Refusal where
  | missing
  | exists
  | notDirectory
  | isDirectory
  | nameTooLong
  | tooManyLinks
  deriving DecidableEq, Repr

def Refusal.number : Refusal → Nat
  | .missing => 2
  | .exists => 17
  | .notDirectory => 20
  | .isDirectory => 21
  | .nameTooLong => 36
  | .tooManyLinks => 40

def Refusal.message : Refusal → String
  | .missing => "No such file or directory"
  | .exists => "File exists"
  | .notDirectory => "Not a directory"
  | .isDirectory => "Is a directory"
  | .nameTooLong => "File name too long"
  | .tooManyLinks => "Too many levels of symbolic links"

namespace Tree

/-- So many links are followed on one way. -/
def linkLimit : Nat := 40

/-- A name has at most so many octets. -/
def nameLimit : Nat := 255

/-- A path has at most so many octets. -/
def pathLimit : Nat := 4095

/-- The steps that a text names. A slash at the end asks for a directory, as a point does. -/
def stepsOf (text : String) : List String :=
  let steps := (Text.splitOn '/' text).filter (· != "")
  if text.toList.getLast? = some '/' then steps ++ ["."] else steps

/-- The steps are taken from a directory. The last name may be missing, and a last link is
followed on demand. What follows a link is told where to start and which steps are left. -/
def walkSteps (tree : Tree) (follows : Bool)
    (enter : Location → List String → Except Refusal Location) (start : Location) :
    List String → Except Refusal Location
  | [] => .ok start
  | step :: rest =>
      if step = "." then walkSteps tree follows enter start rest
      else if step = ".." then walkSteps tree follows enter start.dropLast rest
      else if nameLimit < Utf8.size step then .error .nameTooLong
      else
        let here := start ++ [step]
        match tree.get? here with
        | none => if rest = [] then .ok here else .error .missing
        | some .directory => walkSteps tree follows enter here rest
        | some (.file _) => if rest = [] then .ok here else .error .notDirectory
        | some (.link target) =>
            if rest = [] ∧ !follows then .ok here
            else enter (if target.startsWith "/" then [] else start) (stepsOf target ++ rest)

section Steps

variable {tree : Tree} {follows : Bool}
  {enter : Location → List String → Except Refusal Location} {start : Location} {step : String}
  (rest : List String)

theorem walkSteps_here :
    walkSteps tree follows enter start ("." :: rest) = walkSteps tree follows enter start rest := by
  rw [walkSteps, if_pos rfl]

theorem walkSteps_up :
    walkSteps tree follows enter start (".." :: rest) =
      walkSteps tree follows enter start.dropLast rest := by
  rw [walkSteps, if_neg (by decide), if_pos rfl]

theorem walkSteps_of_long (notHere : step ≠ ".") (notUp : step ≠ "..")
    (long : nameLimit < Utf8.size step) :
    walkSteps tree follows enter start (step :: rest) = .error .nameTooLong := by
  rw [walkSteps, if_neg notHere, if_neg notUp, if_pos long]

end Steps

/-- Each link that is followed leaves one less for the rest of the way. -/
def walk (tree : Tree) (follows : Bool) (links : Nat) (start : Location) (steps : List String) :
    Except Refusal Location :=
  match links with
  | 0 => walkSteps tree follows (fun _ _ => .error .tooManyLinks) start steps
  | links + 1 => walkSteps tree follows (walk tree follows links) start steps

/-- A relative path starts in the current directory. -/
def locate (tree : Tree) (directory : Location) (follows : Bool) (path : Path) :
    Except Refusal Location :=
  if pathLimit < Utf8.size path.toString then .error .nameTooLong
  else walk tree follows linkLimit (if path.isAbsolute then [] else directory) path.parts

/-- The node at the end of the way, behind all links. -/
def status (tree : Tree) (directory : Location) (path : Path) : Except Refusal Node := do
  let location ← tree.locate directory true path
  match tree.get? location with
  | some node => return node
  | none => .error .missing

end Tree

end AssetBundler
