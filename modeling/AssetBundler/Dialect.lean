import AssetBundler.Text.Blank
import AssetBundler.Text.Lowercase

/-!
The source dialects, and what each of them reads, writes and needs.
-/

namespace AssetBundler

/-- A dialect is compiled into scripts or into style sheets. -/
inductive Family where
  | script
  | style
  deriving DecidableEq, Repr

def Family.name : Family → String
  | .script => "script"
  | .style => "style"

/-- The extension of files in the language of the family. -/
def Family.extension : Family → String
  | .script => ".js"
  | .style => ".css"

inductive Dialect where
  | js
  | babel
  | es6
  | es7
  | coffee
  | css
  | sass
  | scss
  | less
  | stylus
  deriving DecidableEq, Repr

namespace Dialect

def all : List Dialect := [js, babel, es6, es7, coffee, css, sass, scss, less, stylus]

def name : Dialect → String
  | js => "js"
  | babel => "babel"
  | es6 => "es6"
  | es7 => "es7"
  | coffee => "coffee"
  | css => "css"
  | sass => "sass"
  | scss => "scss"
  | less => "less"
  | stylus => "stylus"

def family : Dialect → Family
  | js | babel | es6 | es7 | coffee => .script
  | css | sass | scss | less | stylus => .style

/-- The extension that a directory is searched for unless another one is given. -/
def extension : Dialect → String
  | js | babel | es6 | es7 => ".js"
  | coffee => ".coffee"
  | css => ".css"
  | sass => ".sass"
  | scss => ".scss"
  | less => ".less"
  | stylus => ".styl"

/-- The extension of a file after the transform. -/
def outputExtension (dialect : Dialect) : String := dialect.family.extension

/-- The capability that transforms the dialect. Native sources need none. -/
def capability? : Dialect → Option String
  | js | css => none
  | babel | es6 | es7 => some "babel"
  | coffee => some "coffee"
  | sass | scss => some "sass"
  | less => some "less"
  | stylus => some "stylus"

def isBabel (dialect : Dialect) : Bool := dialect.capability? == some "babel"

/-- The presets that are on from the start. -/
def presets : Dialect → List String
  | es6 => ["es2015"]
  | es7 => ["es2015", "stage-0"]
  | _ => []

/-- The dialect of an exact name. -/
def ofName? (name : String) : Option Dialect := all.find? fun dialect => dialect.name == name

theorem ofName?_name (dialect : Dialect) : ofName? dialect.name = some dialect := by
  cases dialect <;> decide

/-- A name that belongs to no dialect. -/
structure Unknown where
  name : String
  deriving DecidableEq, Repr

def Unknown.message (unknown : Unknown) : String :=
  "Unknown dialect '" ++ unknown.name ++ "'. Known dialects: " ++
    ", ".intercalate (all.map Dialect.name)

/-- Blanks around a name and the case of its letters do not count. -/
def parse (name : String) : Except Unknown Dialect :=
  match ofName? (Text.lower (Text.strip name)) with
  | some dialect => .ok dialect
  | none => .error ⟨name⟩

end Dialect

end AssetBundler
