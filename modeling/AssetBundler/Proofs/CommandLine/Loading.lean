import AssetBundler.CommandLine.Run
import AssetBundler.Proofs.Builder.Compilation
import AssetBundler.Proofs.Config.Loading
import AssetBundler.Proofs.Project.Effect

/-!
How the reading of a configuration ends. It ends with a fault of the configuration, which builds and
commands show as such, unless an option without a value is continued or the octets are no text.
-/

namespace AssetBundler

open AssetBundler.Action

namespace Action

variable {Value Result : Type} {action : Action Value} {workspace reached : Workspace}
  {failure : Failure}

theorem run_printLine_bind (text : String) (next : Unit → Action Result) (workspace : Workspace) :
    (printLine text >>= next).run workspace =
      (next ()).run { workspace with events := .output (text ++ "\n") :: workspace.events } := by
  rw [run_bind, printLine, run_record]

/-- An action ends where its first part fails. -/
theorem run_bind_of_error (failed : action.run workspace = (.error failure, reached))
    (next : Value → Action Result) :
    (action >>= next).run workspace = (.error failure, reached) := by
  rw [run_bind, failed]

/-- What is attempted in vain is handed on. -/
theorem run_attempt_bind_of_error (failed : action.run workspace = (.error failure, reached))
    (next : Except Failure Value → Action Result) :
    (attempt action >>= next).run workspace = (next (.error failure)).run reached := by
  have attempted : (attempt action).run workspace =
      (.ok (action.run workspace).1, (action.run workspace).2) := rfl
  rw [run_bind, attempted, failed]

end Action

namespace Project

variable {workspace : Workspace} {directory : Path} {failure : Failure}

/-- The configuration of a directory exists, and reading it fails. -/
structure RefusesConfig (workspace : Workspace) (path : Path) (failure : Failure) : Prop where
  seen : workspace.tree.hasNode workspace.directory path = .ok true
  failed : Config.load workspace.tree workspace.directory path = .error failure

theorem run_findConfig
    (refuses : RefusesConfig workspace (directory.joinText configName) failure) :
    (findConfig directory).run workspace =
      (.ok (some (directory.joinText configName)), workspace) := by
  simp [findConfig, run_bind, Config.find?, refuses.seen]

theorem run_loadConfigAt {path : Path} (refuses : RefusesConfig workspace path failure) :
    (loadConfigAt path).run workspace = (.error failure, workspace) := by
  simp [loadConfigAt, run_bind, refuses.failed]

theorem run_loadConfig (refuses : RefusesConfig workspace (directory.joinText configName) failure) :
    (loadConfig directory).run workspace = (.error failure, workspace) := by
  rw [loadConfig, run_bind, run_findConfig refuses]
  exact run_loadConfigAt refuses

theorem run_openConfig (refuses : RefusesConfig workspace (directory.joinText configName) failure) :
    (openConfig directory).run workspace = (.error failure, workspace) := by
  rw [openConfig, run_bind, run_findConfig refuses]
  exact run_loadConfigAt refuses

/-- A build reports what is wrong with the configuration. -/
theorem run_build_of_refuses (project : Project) (bundles : List String) (cleans : Bool)
    (verbose : Option Bool)
    (refuses : RefusesConfig workspace
      ((root directory workspace.directory).joinText configName) failure) :
    (project.build directory bundles cleans verbose).run workspace =
      (.error (asProjectFault failure), workspace) := by
  have chooses : (choose (root directory workspace.directory) bundles).run workspace =
      (.error failure, workspace) := run_bind_of_error (run_loadConfig refuses) _
  have raises : (raiseAsProject (choose (root directory workspace.directory) bundles)).run
      workspace = (.error (asProjectFault failure), workspace) :=
    run_attempt_bind_of_error chooses _
  rw [build, Builder.run_absolute_bind]
  exact run_bind_of_error raises _

end Project

namespace CommandLine

variable {workspace : Workspace} {directory : Path} {fault : ConfigFault}

/-- What is shown of a fault in the configuration, the last line first. -/
def faultEvents (fault : ConfigFault) : List Event :=
  [.output "\n", .output (fault.message ++ "\n"), .output "\n",
    .output (red ++ "✗ " ++ ("Error: Invalid " ++ configName) ++ plain ++ "\n"), .output "\n"]

/-- What is shown first of a build, the last line first. -/
def greeting : List Event :=
  [.output "\n", .output ("webbuild v" ++ programVersion ++ "\n")]

theorem run_showConfigFault (fault : ConfigFault) (workspace : Workspace) :
    (showConfigFault (.config fault)).run workspace =
      (.ok 1, { workspace with events := faultEvents fault ++ workspace.events }) := by
  have shown (title message : String) (workspace : Workspace) :
      (showError title message).run workspace = (.ok (), { workspace with
        events := [.output "\n", .output (message ++ "\n"), .output "\n",
          .output (red ++ "✗ " ++ title ++ plain ++ "\n"), .output "\n"] ++
            workspace.events }) := by
    simp only [showError, run_printLine_bind]
    rfl
  rw [showConfigFault, run_bind, shown]
  rfl

theorem run_buildSteps_of_refuses {failure : Failure} (toolchain : Toolchain) (runtime : String)
    (arguments : Arguments)
    (refuses : Project.RefusesConfig workspace (directory.joinText configName) failure) :
    (buildSteps toolchain runtime arguments directory).run workspace =
      (.error failure, workspace) := by
  have selects : (selectBundles directory arguments.bundles).run workspace =
      (.error failure, workspace) := by
    have opens := Project.run_openConfig refuses
    unfold selectBundles
    split
    · exact run_bind_of_error (run_bind_of_error opens _) _
    · exact run_bind_of_error opens _
  exact run_bind_of_error selects _

/-- A build shows what is wrong with the configuration. -/
theorem run_runBuild_of_refuses (toolchain : Toolchain) (runtime : String) (arguments : Arguments)
    (refuses : Project.RefusesConfig workspace (directory.joinText configName) (.config fault)) :
    (runBuild toolchain runtime arguments directory).run workspace =
      (.ok 1, { workspace with events := faultEvents fault ++ greeting ++ workspace.events }) := by
  have greeted : Project.RefusesConfig { workspace with events := greeting ++ workspace.events }
      (directory.joinText configName) (.config fault) := ⟨refuses.seen, refuses.failed⟩
  have steps := run_buildSteps_of_refuses toolchain runtime arguments greeted
  rw [runBuild, run_printLine_bind, run_printLine_bind]
  exact (run_attempt_bind_of_error steps _).trans (run_showConfigFault fault _)

/-- A listing shows what is wrong with the configuration. -/
theorem run_runList_of_refuses
    (refuses : Project.RefusesConfig workspace (directory.joinText configName) (.config fault)) :
    (runList directory).run workspace =
      (.ok 1, { workspace with events := faultEvents fault ++ workspace.events }) := by
  have steps : (listSteps directory).run workspace = (.error (.config fault), workspace) :=
    run_bind_of_error (Project.run_openConfig refuses) _
  rw [runList, run_attempt_bind_of_error steps]
  exact run_showConfigFault fault workspace

end CommandLine

namespace Config

/-- A fault of the configuration at a path, as builds and commands report it. -/
structure IsReported (workspace : Workspace) (path : Path) (fault : ConfigFault) : Prop where
  failed : load workspace.tree workspace.directory path = .error (.config fault)
  raised : ∀ (project : Project) (directory : Path) (bundles : List String) (cleans : Bool)
    (verbose : Option Bool),
    (Project.root directory workspace.directory).joinText configName = path →
      (project.build directory bundles cleans verbose).run workspace =
        (.error (.project (.config fault)), workspace)
  shown : ∀ (toolchain : Toolchain) (runtime : String) (arguments : CommandLine.Arguments)
    (directory : Path), directory.joinText configName = path →
      (CommandLine.runBuild toolchain runtime arguments directory).run workspace =
        (.ok 1, { workspace with events :=
          CommandLine.faultEvents fault ++ CommandLine.greeting ++ workspace.events })
  listed : ∀ directory : Path, directory.joinText configName = path →
    (CommandLine.runList directory).run workspace =
      (.ok 1, { workspace with events := CommandLine.faultEvents fault ++ workspace.events })

/-- A configuration that exists is loaded, or its fault is reported. -/
def Answers (workspace : Workspace) (path : Path) : Prop :=
  (∃ config, load workspace.tree workspace.directory path = .ok config) ∨
    ∃ fault, IsReported workspace path fault

variable {workspace : Workspace} {path : Path} {bytes : Bytes}

theorem isReported (seen : workspace.tree.hasNode workspace.directory path = .ok true)
    {fault : ConfigFault}
    (failed : load workspace.tree workspace.directory path = .error (.config fault)) :
    IsReported workspace path fault where
  failed := failed
  raised project _ bundles cleans verbose same :=
    project.run_build_of_refuses bundles cleans verbose ⟨same ▸ seen, same ▸ failed⟩
  shown toolchain runtime arguments _ same :=
    CommandLine.run_runBuild_of_refuses toolchain runtime arguments ⟨same ▸ seen, same ▸ failed⟩
  listed _ same := CommandLine.run_runList_of_refuses ⟨same ▸ seen, same ▸ failed⟩

/-- How the reading of a configuration that exists ends. Only an option without a value that is
continued, and octets of no text, are not reported as a fault of the configuration. -/
theorem load_ends (holds : workspace.tree.read workspace.directory path = .ok bytes) :
    (load workspace.tree workspace.directory path = .error .continuedName ↔
        Ini.Reader.ContinuesBare {} 1 (Ini.linesOf bytes)) ∧
      ((∃ fault, load workspace.tree workspace.directory path = .error (.undecodable fault)) ↔
        Ini.BreaksOff bytes) ∧
      (Answers workspace path ↔
        ¬ Ini.Reader.ContinuesBare {} 1 (Ini.linesOf bytes) ∧ ¬ Ini.BreaksOff bytes) := by
  have continued := load_continued_iff holds
  have broken := load_undecodable_iff holds
  refine ⟨continued, broken, ?_⟩
  rw [← continued, ← broken]
  constructor
  · rintro (⟨config, loaded⟩ | ⟨fault, reported⟩)
    · simp [loaded]
    · simp [reported.failed]
  · rintro ⟨notContinued, notBroken⟩
    cases outcome : load workspace.tree workspace.directory path with
    | ok config => exact .inl ⟨config, outcome⟩
    | error failure =>
        rcases load_error holds outcome with ⟨fault, rfl⟩ | rfl | ⟨fault, rfl⟩
        · exact .inr ⟨_, isReported (hasNode_of_read holds) outcome⟩
        · exact absurd outcome notContinued
        · exact absurd ⟨fault, outcome⟩ notBroken

/-- An option outside of all sections is reported. -/
theorem load_ends_lonely :
    (lonely (Utf8.encode "k\n")).tree.read ["p"] lonelyPath = .ok (Utf8.encode "k\n") ∧
      Answers (lonely (Utf8.encode "k\n")) lonelyPath := by
  have fault : Ini.ofBytes (Utf8.encode "k\n") = .error (.line (.missingHeader 1 "k\n")) := by
    decide +kernel
  have refused := load_lonely (Utf8.encode "k\n")
  rw [fault] at refused
  have holds : (lonely (Utf8.encode "k\n")).tree.read (lonely (Utf8.encode "k\n")).directory
      lonelyPath = .ok (Utf8.encode "k\n") := rfl
  obtain ⟨continued, broken, answers⟩ := load_ends holds
  refine ⟨holds, answers.mpr ⟨?_, ?_⟩⟩
  · rw [← continued, refused]
    simp [Failure.ofDocument]
  · rw [← broken, refused]
    simp [Failure.ofDocument]

/-- A continued option without a value is not reported, and neither is a foreign octet. -/
theorem load_escapes :
    load (lonely (Utf8.encode "[a]\nk\n  v\n")).tree ["p"] lonelyPath = .error .continuedName ∧
      load (lonely [0xFF]).tree ["p"] lonelyPath =
        .error (.undecodable ⟨0, [0xFF], .invalidStart⟩) := by
  have continued : Ini.ofBytes (Utf8.encode "[a]\nk\n  v\n") = .error (.line .continuedName) := by
    decide +kernel
  have foreign : Ini.ofBytes [0xFF] = .error (.undecodable ⟨0, [0xFF], .invalidStart⟩) := by
    decide +kernel
  have escapes := load_lonely (Utf8.encode "[a]\nk\n  v\n")
  have breaks := load_lonely [0xFF]
  rw [continued] at escapes
  rw [foreign] at breaks
  exact ⟨escapes, breaks⟩

end Config

end AssetBundler
