/-!
Whole numbers with a comma before each group of three digits.
-/

namespace AssetBundler.Decimal

/-- The digits are given from the last one on. -/
def groupReversed : List Char → List Char
  | first :: second :: third :: fourth :: rest =>
      first :: second :: third :: ',' :: groupReversed (fourth :: rest)
  | short => short

def grouped (number : Nat) : String :=
  String.ofList (groupReversed (Nat.toDigits 10 number).reverse).reverse

example : grouped 1234567 = "1,234,567" ∧ grouped 123 = "123" := by decide +kernel

end AssetBundler.Decimal
