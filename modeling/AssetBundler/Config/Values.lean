import AssetBundler.Failure

/-!
The values of settings: lists, switches and options.
-/

namespace AssetBundler.Config

/-- The settings of a section. -/
abbrev Settings := Assoc String

/-- A setting that is not given has the empty value. -/
def setting (settings : Settings) (key : String) : String :=
  (Assoc.find? settings key).getD ""

/-- A comma and a line feed part items. Blanks around an item do not count, and empty items are
left out. -/
def splitList (value : String) : List String :=
  let lines := Text.lines value
  let items := lines.flatMap (Text.splitOn ',')
  (items.map Text.strip).filter (· != "")

/-- The words for a switch. -/
def switchWords : List (String × Bool) :=
  [("1", true), ("yes", true), ("true", true), ("on", true), ("0", false), ("no", false),
    ("false", false), ("off", false)]

/-- A switch without a value is off. -/
def parseBool (settings : Settings) (key section_ : String) : Except Failure Bool :=
  let value := setting settings key
  if value = "" then .ok false
  else
    match switchWords.lookup (Text.lower value) with
    | some state => .ok state
    | none => .error (.config (.notBoolean section_ key value))

/-- Options are the fields of a JSON object. A text beyond the limits of the reader is no fault of
the configuration. -/
def parseOptions (settings : Settings) (key section_ : String) : Except Failure Options :=
  let value := setting settings key
  if value = "" then .ok []
  else
    match Json.load value with
    | .ok (.object fields) => .ok fields
    | .ok _ => .error (.config (.notObject section_ key))
    | .error error =>
        if error.fault.isLimit then .error (.jsonLimit error.fault)
        else .error (.config (.invalidJson section_ key error))

/-- The empty value counts as none. -/
def nonEmpty? (value : String) : Option String := if value = "" then none else some value

end AssetBundler.Config
