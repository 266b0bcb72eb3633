import CombatAccuracy.Binary64
/-!
# Shortest decimals

A double is written with as few digits as tell it from its neighbours. The decimals that do are
those between the halfway points to the next doubles on either side; of these the ones on the
coarsest grid of a power of ten have the fewest digits, and the nearest of them is taken.
-/
namespace CombatAccuracy

/-- A magnitude in units of a power of ten, and the halfway points to its neighbours, which count
for it as well if it is even. -/
structure Surroundings where
  low : Nat
  exact : Nat
  high : Nat
  even : Bool

namespace Surroundings

/-- The surroundings of the double `mantissa * 2 ^ exponent`, in units of `10 ^ places`: the next
double below a power of two is only half as far away as the one above, unless that is among the
smallest. -/
def ofDouble (mantissa : Nat) (exponent : Int) : Surroundings × Int :=
  let quarter := if 2 ≤ exponent then 1 <<< (exponent - 2).toNat else Nat.pow 5 (2 - exponent).toNat
  let exact := 4 * mantissa * quarter
  let below := if mantissa = 1 <<< 52 ∧ -1074 < exponent then quarter else 2 * quarter
  ({ low := exact - below, exact, high := exact + 2 * quarter, even := mantissa % 2 = 0 },
    min 0 (exponent - 2))

def contains (surroundings : Surroundings) (n : Nat) : Bool :=
  if surroundings.even then surroundings.low ≤ n && n ≤ surroundings.high
  else surroundings.low < n && n < surroundings.high

/-- Whether a multiple of a unit is taken and not the next one; halfway, if it is even. -/
def prefersLower (surroundings : Surroundings) (unit lower : Nat) : Bool :=
  let fromLower := surroundings.exact - lower * unit
  let fromUpper := (lower + 1) * unit - surroundings.exact
  fromLower < fromUpper || fromLower = fromUpper && lower % 2 = 0

/-- The multiple of a unit that is nearest to the magnitude, if any multiple will do. -/
def nearest? (surroundings : Surroundings) (unit : Nat) : Option Nat :=
  let lower := surroundings.exact / unit
  match surroundings.contains (lower * unit), surroundings.contains ((lower + 1) * unit) with
  | true, true => some (if surroundings.prefersLower unit lower then lower else lower + 1)
  | true, false => some lower
  | false, true => some (lower + 1)
  | false, false => none

/-- Digits and places of the coarsest multiple of a power of ten that will do, if that power is
among the first `places`. -/
def shortest (surroundings : Surroundings) : Nat → Nat × Nat
  | 0 => (surroundings.exact, 0)
  | places + 1 =>
    match surroundings.nearest? (Nat.pow 10 (places + 1)) with
    | some digits => (digits, places + 1)
    | none => surroundings.shortest places

end Surroundings

/-- The fewest digits and their power of ten that tell a positive double. -/
def Binary64.shortestDecimal (mantissa : Nat) (exponent : Int) : Nat × Int :=
  let (surroundings, least) := Surroundings.ofDouble mantissa exponent
  let (digits, places) := surroundings.shortest (Nat.toDigits 10 surroundings.exact).length
  (digits, least + places)

end CombatAccuracy
