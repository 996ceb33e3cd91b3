import AssetBundler.Capability.Registry
import AssetBundler.Json.Printer

/-!
Registration of a script as a module under an identifier.
-/

namespace AssetBundler.CommonJs

/-- The contents become the body of a module function. On demand the module is also required at
once. -/
def wrapText (contents moduleId : CodeText) (options : Options) : CodeText :=
  let name : CodeText := Json.quote moduleId
  let registration : CodeText :=
    "require.register(" ++ name ++ ", function(exports, require, module)\x7b\n" ++ contents ++
      "\n\x7d);"
  if options.isSet "auto_require" then registration ++ "\nrequire(" ++ name ++ ");"
  else registration

/-- The wrapped text of strings is shown without loss. -/
def wrap (contents moduleId : String) (options : Options) : String :=
  (wrapText contents moduleId options).shown

/-- The wrapper never fails. -/
def wrapper : Capability := fun contents moduleId options => .ok (wrap contents moduleId options)

end AssetBundler.CommonJs
