import AssetBundler.Assoc
import AssetBundler.Decimal.Binary64
import AssetBundler.Text.CodePoint

/-!
Values of the JSON data model. Whole numbers are unbounded, and an object keeps the order of its
fields. The texts of a value are strings of characters, or code texts where surrogates may occur.
-/

namespace AssetBundler

inductive Json (Text : Type := String) where
  | null
  | bool (value : Bool)
  | integer (value : Int)
  | real (value : Binary64)
  | string (text : Text)
  | array (items : List (Json Text))
  | object (fields : List (Text × Json Text))
  deriving Inhabited

namespace Json

variable {Text Other : Type}

/-- A value counts as false when it is null, false, zero or empty. -/
def isTruthy [HasPoints Text] : Json Text → Bool
  | .null => false
  | .bool value => value
  | .integer value => value != 0
  | .real value => !value.isZero
  | .string text => !(HasPoints.points text).isEmpty
  | .array items => !items.isEmpty
  | .object fields => !fields.isEmpty

mutual

/-- The value with its texts and the names of its fields converted. -/
def mapText (convert : Text → Other) : Json Text → Json Other
  | .null => .null
  | .bool value => .bool value
  | .integer value => .integer value
  | .real value => .real value
  | .string text => .string (convert text)
  | .array items => .array (mapItems convert items)
  | .object fields => .object (mapFields convert fields)

def mapItems (convert : Text → Other) : List (Json Text) → List (Json Other)
  | [] => []
  | item :: rest => mapText convert item :: mapItems convert rest

def mapFields (convert : Text → Other) : List (Text × Json Text) → List (Other × Json Other)
  | [] => []
  | (name, value) :: rest => (convert name, mapText convert value) :: mapFields convert rest

end

end Json

/-- Options are the fields of an object. -/
abbrev Options := List (CodeText × Json CodeText)

namespace Options

/-- An option that is not given counts as false. -/
def isSet (options : Options) (key : CodeText) : Bool :=
  match Assoc.find? options key with
  | some value => value.isTruthy
  | none => false

/-- Fields that are given as options. -/
instance : Coe (List (String × Json)) Options := ⟨Json.mapFields CodeText.ofString⟩

/-- Options as fields that are shown. -/
instance : Coe Options (List (String × Json)) := ⟨Json.mapFields CodeText.shown⟩

end Options

end AssetBundler
