import AssetBundler.Workspace

/-!
What a build shows. Its lines go to the output, and the log records of a sufficient level go to
the complaints.
-/

namespace AssetBundler.Console

/-- The text of the output. The time that the build took is filled in. -/
def outputText (buildTime : String) (events : List Event) : String :=
  String.join (events.map fun event =>
    match event with
    | .output text => text
    | .buildTime => "Build time: " ++ buildTime ++ "s\n"
    | _ => "")

/-- The text of the complaints. The progress of a build is shown by the given text. -/
def complaintText (progress : String) (shows : Level → Bool) (events : List Event) : String :=
  String.join (events.map fun event =>
    match event with
    | .complaint text => text
    | .progress => progress
    | .log source level message =>
        if shows level then source ++ " - " ++ level.name ++ " - " ++ message ++ "\n" else ""
    | _ => "")

/-- The log records with their levels. -/
def logLines (events : List Event) : List String :=
  events.filterMap fun event =>
    match event with
    | .log _ level message => some (level.name ++ " " ++ message)
    | _ => none

end AssetBundler.Console
