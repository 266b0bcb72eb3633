/-!
# Hit chances

Two opposing rolls reduce to a hit chance in hundredths of a percent. The stronger side is judged by
how far the weaker one trails it; every intermediate result is held within 64 bits (`saturate`), and
the result within the scale, so the reduction is defined for all rolls.
-/
namespace CombatAccuracy

/-- A chance to hit, in hundredths of a percent. -/
structure HitChance where
  points : Nat
  points_le : points ≤ 10000
  deriving DecidableEq, Repr

namespace HitChance

def scale : Nat := 10000

def zero : HitChance := ⟨0, by decide⟩

/-- The chance nearest to a number of points. -/
def ofInt (points : Int) : HitChance where
  points := (max 0 (min points scale)).toNat
  points_le := by simp only [scale]; omega

/-- The 64-bit integer nearest to an integer. -/
def saturate (n : Int) : Int :=
  max Int64.minValue.toInt (min n Int64.maxValue.toInt)

/-- Twice one more than the stronger roll: what either reduction divides by. -/
def divisor (stronger : Int) : Int :=
  saturate (saturate (stronger + 1) * 2)

/-- The points of an attack roll that exceeds the defence roll: all but the defender's share. -/
def favoured (attack defence : Int) : Int :=
  saturate (scale - saturate (saturate (defence + 2) * scale) / divisor attack)

/-- The points of an attack roll that does not exceed the defence roll: the attacker's share. -/
def outmatched (attack defence : Int) : Int :=
  saturate (attack * scale) / divisor defence

/-- The chance of an attack roll against a defence roll; none when the stronger roll is negative. -/
def ofRolls (attack defence : Int64) : HitChance :=
  if attack > defence then
    if attack < 0 then zero else ofInt (favoured attack.toInt defence.toInt)
  else
    if defence < 0 then zero else ofInt (outmatched attack.toInt defence.toInt)

/-- Whether a draw below the scale is a hit. -/
def beats (chance : HitChance) (draw : UInt32) : Bool :=
  decide (draw.toNat < chance.points)

def fraction (chance : HitChance) : Float :=
  Float.ofNat chance.points / Float.ofNat scale

/-- The chance as a percentage with two places. -/
def percent (chance : HitChance) : String :=
  let places := chance.points % 100
  toString (chance.points / 100) ++ (if places < 10 then ".0" else ".") ++ toString places ++ "%"

end HitChance

/-- An attack roll and the defence roll it meets. -/
@[ext]
structure Rolls where
  attack : Int64
  defence : Int64
  deriving DecidableEq, Repr

def Rolls.hitChance (rolls : Rolls) : HitChance :=
  .ofRolls rolls.attack rolls.defence

end CombatAccuracy
