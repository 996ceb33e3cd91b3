import AssetBundler.Json.Basic

/-!
The registry of capabilities, and what is said when one is missing.
-/

namespace AssetBundler

/-- How a capability can fail to give a text. -/
inductive CapabilityFault where
  | raised (label message : String)
  | interrupted
  deriving DecidableEq, Repr

/-- A capability changes contents. The subject is the path of the source, the identifier of the
module for a module wrapper, and empty for a minifier. -/
abbrev Capability := (contents subject : String) → Options → Except CapabilityFault String

/-- A registry maps names to capabilities in the order of their first registration. -/
abbrev Registry (Value : Type) := Assoc Value

namespace Registry

/-- The name of a capability that nothing is registered under. -/
structure Missing where
  name : String
  deriving DecidableEq, Repr

/-- What a capability does, and the package that provides it. -/
def requirements : List (String × String × String) :=
  [("sass", "Sass compiler", "libsass>=0.22"), ("less", "Less compiler", "lesscpy>=0.15"),
    ("stylus", "Stylus compiler", "stylus>=0.1"), ("babel", "Babel compiler", "dukpy>=0.3"),
    ("coffee", "CoffeeScript compiler", "dukpy>=0.3"),
    ("autoprefixer", "Autoprefixer", "autoprefixer>=10.0"),
    ("js-minify", "JavaScript minifier", "rjsmin>=1.2"),
    ("css-minify", "CSS minifier", "rcssmin>=1.1"),
    ("commonjs", "CommonJS module wrapper", "webbuild")]

def Missing.message (missing : Missing) : String :=
  match Assoc.find? requirements missing.name with
  | none => "Capability '" ++ missing.name ++ "' is not registered"
  | some (label, package) =>
      label ++ " not defined (capability '" ++ missing.name ++ "'). Please add \"" ++ package ++
        "\" to your project dependencies"

def register {Value : Type} (registry : Registry Value) (name : String) (value : Value) :
    Registry Value :=
  Assoc.insert registry name value

def get {Value : Type} (registry : Registry Value) (name : String) : Except Missing Value :=
  match Assoc.find? registry name with
  | some value => .ok value
  | none => .error ⟨name⟩

def has {Value : Type} (registry : Registry Value) (name : String) : Bool :=
  Assoc.contains registry name

def names {Value : Type} (registry : Registry Value) : List String := Assoc.keys registry

theorem get_register {Value : Type} (registry : Registry Value) (name other : String)
    (value : Value) :
    (registry.register name value).get other =
      if name = other then .ok value else registry.get other := by
  by_cases same : name = other <;> simp [get, register, Assoc.find?_insert, same]

end Registry

end AssetBundler
