/-!
# Doubles as exact numbers

A double is read off its bits as `mantissa * 2 ^ exponent`, and arithmetic on doubles is arithmetic
on such pairs with one rounding to 53 significant bits. Everything here is integer arithmetic, so a
product of an integer and a double is rounded, floored and compared without an appeal to hardware.
-/
namespace CombatAccuracy

/-- What a double denotes; a finite one is `mantissa * 2 ^ exponent`. -/
inductive Binary64 where
  | nan
  | infinite (negative : Bool)
  | finite (mantissa exponent : Int)
  deriving DecidableEq, Repr

namespace Binary64

/-- The number denoted by a sign, a biased exponent and a fraction: an exponent field of all ones
marks infinities and NaN, one of all zeros a number without the implicit leading bit. -/
def ofFields (negative : Bool) (biased fraction : Nat) : Binary64 :=
  if biased = 2047 then
    if fraction = 0 then .infinite negative else .nan
  else
    let magnitude := if biased = 0 then fraction else (1 <<< 52) + fraction
    let exponent := if biased = 0 then -1074 else (biased : Int) - 1075
    .finite (if negative then -(magnitude : Int) else magnitude) exponent

def ofFloat (x : Float) : Binary64 :=
  let bits := x.toBits.toNat
  ofFields (bits.testBit 63) ((bits >>> 52) % 2048) (bits % (1 <<< 52))

/-- The multiple of `2 ^ places` nearest to `n`; halfway between two, the even multiple. -/
def nearestMultiple (places n : Nat) : Nat :=
  let unit := 1 <<< places
  let quotient := n / unit
  let rest := n % unit
  if 2 * rest < unit ∨ 2 * rest = unit ∧ quotient % 2 = 0 then quotient * unit
  else (quotient + 1) * unit

theorem nearestMultiple_of_dvd {places n : Nat} (h : 1 <<< places ∣ n) :
    nearestMultiple places n = n := by
  have hp : 0 < 1 <<< places := by
    rw [Nat.one_shiftLeft]
    exact Nat.two_pow_pos places
  simp [nearestMultiple, Nat.mod_eq_zero_of_dvd h, Nat.div_mul_cancel h, hp]

/-- A natural number rounded to 53 significant bits. -/
def roundNat (n : Nat) : Nat :=
  nearestMultiple (n.log2 - 52) n

/-- An integer rounded to 53 significant bits, alike for both signs. -/
def roundInt (n : Int) : Int :=
  n.sign * roundNat n.natAbs

/-- The greatest integer that is at most `n * 2 ^ exponent`. -/
def floorScaled (n exponent : Int) : Int :=
  if 0 ≤ exponent then n <<< exponent.toNat else n >>> (-exponent).toNat

/-- `⌊n * x⌋` as doubles compute it, as an `Int64`: `n` and the product are each rounded to 53
significant bits, what lies beyond the range becomes its nearest end, and what is no number becomes
0. The product of an integer and a double is a multiple of the smallest double, so it is never
rounded further for being small. -/
def floorMul (n : Int64) : Binary64 → Int64
  | .nan => 0
  | .infinite negative =>
    if n = 0 then 0 else if decide (n < 0) = negative then Int64.maxValue else Int64.minValue
  | .finite mantissa exponent =>
    Int64.ofIntClamp (floorScaled (roundInt (roundInt n.toInt * mantissa)) exponent)

end Binary64
end CombatAccuracy
