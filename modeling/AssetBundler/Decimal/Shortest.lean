import AssetBundler.Decimal.Binary64

/-!
The shortest decimal that reads back as a given binary number, and its text. The decimal grids are
tried from the coarsest on. On each of them only the two neighbours of the value matter, because
one of them lies in the rounding interval whenever any point of the grid does.
-/

namespace AssetBundler.Binary64

/-- A finite number is `coefficient * 2 ^ power` without its sign. -/
def decompose (x : Binary64) : Nat × Int :=
  let field : Nat := x.magnitude / Nat.pow 2 52
  let fraction : Nat := x.magnitude % Nat.pow 2 52
  if field = 0 then (fraction, -1074) else (Nat.pow 2 52 + fraction, (field : Int) - 1075)

/-- A power with a possibly negative exponent, as a numerator and a denominator. -/
def ratioPower (base : Nat) : Int → Nat × Nat
  | .ofNat k => (Nat.pow base k, 1)
  | .negSucc k => (1, Nat.pow base (k + 1))

/-- The numbers that round to a positive value, in quarters of its step. The ends belong when the
coefficient is even. -/
structure RoundingInterval where
  low : Nat
  value : Nat
  high : Nat
  closed : Bool

/-- Below a power of two the lower neighbour is only half as far away. -/
def roundingInterval (coefficient : Nat) (power : Int) : RoundingInterval where
  low :=
    if coefficient = Nat.pow 2 52 ∧ -1074 < power then 4 * coefficient - 1
    else 4 * coefficient - 2
  value := 4 * coefficient
  high := 4 * coefficient + 2
  closed := coefficient % 2 == 0

def RoundingInterval.holds (interval : RoundingInterval) (numerator denominator : Nat) : Bool :=
  let low := interval.low * denominator
  let high := interval.high * denominator
  if interval.closed then low ≤ numerator && numerator ≤ high
  else low < numerator && numerator < high

/-- The neighbour of the value on the grid of a power of ten that reads back. Of two the nearer
one is taken, and the even one of two at the same distance. -/
def gridPoint? (interval : RoundingInterval) (power place : Int) : Option Nat :=
  let (stepNumerator, stepDenominator) := ratioPower 2 (power - 2)
  let (gridNumerator, gridDenominator) := ratioPower 10 place
  -- one grid step is `numerator / denominator` quarter steps
  let numerator := gridNumerator * stepDenominator
  let denominator := gridDenominator * stepNumerator
  let below := interval.value * denominator / numerator
  let belowHolds := interval.holds (below * numerator) denominator
  let aboveHolds := interval.holds ((below + 1) * numerator) denominator
  let toBelow := interval.value * denominator - below * numerator
  let toAbove := (below + 1) * numerator - interval.value * denominator
  if belowHolds && aboveHolds then
    some (if toBelow < toAbove then below
      else if toAbove < toBelow then below + 1
      else below + below % 2)
  else if belowHolds then some below
  else if aboveHolds then some (below + 1)
  else none

/-- The first grid with a point that reads back, from a place downwards. -/
def searchGrid (interval : RoundingInterval) (power : Int) : Nat → Int → Nat × Int
  | 0, place => (0, place)
  | attempts + 1, place =>
      match gridPoint? interval power place with
      | some point => (point, place)
      | none => searchGrid interval power attempts (place - 1)

/-- The digits and the place of the last digit. Seventeen digits always suffice, and the search
starts at most three places above the first of them. -/
def shortest (x : Binary64) : Nat × Int :=
  let (coefficient, power) := x.decompose
  let start := ((coefficient.log2 : Int) + 1 + power) * 30103 / 100000 + 1
  searchGrid (roundingInterval coefficient power) power 24 start

/-- Positional notation serves the points from four places below the unit to sixteen above it. -/
def isPositional (point : Int) : Bool := -4 < point && point ≤ 16

/-- The digits with the point before the digit at the given index. -/
def positional (digits : List Char) (point : Int) : List Char :=
  if point ≤ 0 then
    '0' :: '.' :: (List.replicate (-point).toNat '0' ++ digits)
  else
    let whole := digits.take point.toNat
    let fraction := digits.drop point.toNat
    whole ++ List.replicate (point.toNat - whole.length) '0' ++
      '.' :: (if fraction.isEmpty then ['0'] else fraction)

/-- One digit before the point, and an exponent with a sign and at least two digits. -/
def scientific (digits : List Char) (exponent : Int) : List Char :=
  let power := Nat.toDigits 10 exponent.natAbs
  let padded := List.replicate (2 - power.length) '0' ++ power
  let mantissa :=
    match digits with
    | first :: second :: rest => first :: '.' :: second :: rest
    | short => short
  mantissa ++ 'e' :: (if exponent < 0 then '-' else '+') :: padded

/-- The text of a number: the fewest digits that read back. -/
def text (x : Binary64) : String :=
  if infinityBits < x.magnitude then "nan"
  else
    let sign := if x.isNegative then ['-'] else []
    if x.magnitude = infinityBits then String.ofList (sign ++ "inf".toList)
    else if x.isZero then String.ofList (sign ++ "0.0".toList)
    else
      let (digits, place) := x.shortest
      let digits := Nat.toDigits 10 digits
      let point := place + digits.length
      String.ofList (sign ++
        if isPositional point then positional digits point else scientific digits (point - 1))

end AssetBundler.Binary64
