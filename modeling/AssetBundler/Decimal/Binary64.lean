/-!
Binary numbers of 64 bits. A decimal is rounded to the nearest of them, a tie going to the even
neighbour, in exact arithmetic on natural numbers.
-/

namespace AssetBundler

/-- The layout is one sign bit, eleven exponent bits and fifty-two fraction bits. -/
structure Binary64 where
  bits : UInt64
  deriving DecidableEq, Inhabited

namespace Binary64

/-- The patterns from this one on are infinity and the values that are no number. -/
def infinityBits : Nat := 0x7FF0000000000000

def signBit : Nat := 0x8000000000000000

def infinity : Binary64 := ⟨infinityBits.toUInt64⟩

def negativeInfinity : Binary64 := ⟨(signBit + infinityBits).toUInt64⟩

def notANumber : Binary64 := ⟨0x7FF8000000000000⟩

def isNegative (x : Binary64) : Bool := signBit ≤ x.bits.toNat

/-- The pattern without its sign. -/
def magnitude (x : Binary64) : Nat := x.bits.toNat % signBit

def isZero (x : Binary64) : Bool := x.magnitude == 0

/-- The nearest integer to a quotient, a tie going to the even one. -/
def roundQuotient (numerator denominator : Nat) : Nat :=
  let quotient := numerator / denominator
  let twice := 2 * (numerator % denominator)
  if twice < denominator then quotient
  else if denominator < twice then quotient + 1
  else quotient + quotient % 2

/-- The numerator and the denominator of a quotient divided by a power of two. -/
def scale (numerator denominator : Nat) (power : Int) : Nat × Nat :=
  match power with
  | .ofNat k => (numerator, denominator * Nat.pow 2 k)
  | .negSucc k => (numerator * Nat.pow 2 (k + 1), denominator)

/-- The pattern of the value nearest to a positive quotient. The grid of a power of two is chosen
so that the rounded count of steps has fifty-three bits, or fewer at the smallest power. -/
def patternOfQuotient (numerator denominator : Nat) : Nat :=
  let estimate : Int := (numerator.log2 : Int) - denominator.log2 - 53
  let coarse := max estimate (-1074)
  let (n, d) := scale numerator denominator coarse
  let power := if Nat.pow 2 53 ≤ n / d then coarse + 1 else coarse
  let (n, d) := scale numerator denominator power
  min ((power + 1074).toNat * Nat.pow 2 52 + roundQuotient n d) infinityBits

/-- The value nearest to `digits * 10 ^ exponent`. Beyond the largest and the smallest exponents
the answer is infinity or zero, and no power is computed. -/
def ofDecimal (negative : Bool) (digits : Nat) (exponent : Int) : Binary64 :=
  let places : Int := (Nat.toDigits 10 digits).length + exponent
  let pattern :=
    if digits = 0 ∨ places < -400 then 0
    else if 400 < places then infinityBits
    else
      match exponent with
      | .ofNat k => patternOfQuotient (digits * Nat.pow 10 k) 1
      | .negSucc k => patternOfQuotient digits (Nat.pow 10 (k + 1))
  ⟨((if negative then signBit else 0) + pattern).toUInt64⟩

example : (ofDecimal false 5 (-1)).bits = 0x3FE0000000000000 := by decide

end Binary64

end AssetBundler
