import CombatAccuracy.Binary64
import CombatAccuracy.Sourcing
/-!
# Rolls

A roll is a level times an offset bonus (`baseRoll`); an attack roll is then scaled by the attack's
multiplier. Levels and bonuses have 32 bits, so a roll always fits in 64 (`toInt_baseRoll`).
-/
namespace CombatAccuracy

/-- A level times its bonus, of which 64 points are free. -/
def baseRoll (level bonus : Int32) : Int64 :=
  level.toInt64 * (bonus.toInt64 + 64)

theorem toInt_baseRoll (level bonus : Int32) :
    (baseRoll level bonus).toInt = level.toInt * (bonus.toInt + 64) := by
  have hl := level.le_toInt
  have hl' := level.toInt_lt
  have hb := bonus.le_toInt
  have hb' := bonus.toInt_lt
  have hsum : (bonus.toInt64 + 64).toInt = bonus.toInt + 64 := by
    rw [Int64.toInt_add, Int32.toInt_toInt64]
    exact Int.bmod_eq_of_le (by simp; omega) (by simp; omega)
  have hsize : (level.toInt * (bonus.toInt + 64)).natAbs ≤ 2 ^ 31 * (2 ^ 31 + 64) := by
    rw [Int.natAbs_mul]
    exact Nat.mul_le_mul (by omega) (by omega)
  rw [baseRoll, Int64.toInt_mul, hsum, Int32.toInt_toInt64]
  exact Int.bmod_eq_of_le (by omega) (by omega)

/-- A roll times a multiplier, rounded down. -/
def scaleRoll (roll : Int64) (multiplier : Float) : Int64 :=
  Binary64.floorMul roll (.ofFloat multiplier)

/-- The bonus a table gives in a column, or none at all without a column. -/
def bonusIn (bonuses : BonusColumn → Int32) : Option BonusColumn → Int32
  | none => 0
  | some column => bonuses column

/-- The attack roll of a melee attack; one of no type finds no bonus. -/
def MeleeOffence.roll (offence : MeleeOffence) (attacker : Attributes) : Int64 :=
  let bonus := bonusIn attacker.offenceBonus (offence.attackType.map MeleeType.column)
  scaleRoll (baseRoll (attacker.meleeLevel offence.style) bonus) offence.multiplier

/-- The attack roll of a ranged attack, whose bonus does not depend on its type. -/
def RangedOffence.roll (offence : RangedOffence) (attacker : Attributes) : Int64 :=
  scaleRoll (baseRoll (attacker.rangedLevel offence.style) (attacker.offenceBonus .ranged))
    offence.multiplier

def MagicOffence.roll (offence : MagicOffence) (attacker : Attributes) : Int64 :=
  scaleRoll (baseRoll (attacker.magicLevel offence.style) (attacker.offenceBonus .magic))
    offence.multiplier

/-- The defence roll against a melee attack; one of no type is met without a bonus. -/
def meleeDefenceRoll (defender : Attributes) (blockType : Option MeleeType) : Int64 :=
  baseRoll (defender.defenceLevel .melee)
    (bonusIn defender.defenceBonus (blockType.map MeleeType.column))

def rangedDefenceRoll (defender : Attributes) (column : BonusColumn) : Int64 :=
  baseRoll (defender.defenceLevel .ranged) (defender.defenceBonus column)

/-- A level lowered by a positive reduction, though not below zero; any other reduction leaves even
a negative level as it is. -/
def reducedLevel (level reduction : Int32) : Int32 :=
  if 0 < reduction then .ofIntClamp (max 0 (level.toInt - reduction.toInt)) else level

theorem toInt_reducedLevel (level reduction : Int32) :
    (reducedLevel level reduction).toInt =
      if 0 < reduction then max 0 (level.toInt - reduction.toInt) else level.toInt := by
  unfold reducedLevel
  split
  · next hpositive =>
    have hr : 0 < reduction.toInt := by simpa [Int32.lt_iff_toInt_lt] using hpositive
    have hl := level.toInt_lt
    refine Int32.toInt_ofIntClamp ?_ ?_
    · rw [Int32.toInt_minValue]
      omega
    · rw [Int32.toInt_maxValue]
      omega
  · rfl

def MagicDefence.roll (defence : MagicDefence) (defender : Attributes) : Int64 :=
  baseRoll (reducedLevel (defender.defenceLevel .magic) defence.levelReduction)
    (defender.defenceBonus defence.column)

end CombatAccuracy
