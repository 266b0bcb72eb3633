import CombatAccuracy.Evaluator
/-!
# Attacks by name

For each of the nine sorts of attack, its chance to hit and its decision, from the parameters of
that sort alone.
-/
namespace CombatAccuracy.Evaluator
variable {σ : Type} [RandomSource σ] (evaluator : Evaluator) (attacker defender : Combatant)

def meleeHitChance (attack : MeleeAttack) : Traced HitChance :=
  evaluator.hitChance ⟨attacker, defender, .melee attack⟩

def rollMelee (attack : MeleeAttack) : StateT σ Traced Bool := do
  (← evaluator.meleeHitChance attacker defender attack).decide

def rangedHitChance (attack : RangedAttack) : Traced HitChance :=
  evaluator.hitChance ⟨attacker, defender, .ranged attack⟩

def rollRanged (attack : RangedAttack) : StateT σ Traced Bool := do
  (← evaluator.rangedHitChance attacker defender attack).decide

def spellHitChance (cast : SpellCast) : Traced HitChance :=
  evaluator.hitChance ⟨attacker, defender, .magic (.spell cast)⟩

def rollSpell (cast : SpellCast) : StateT σ Traced Bool := do
  (← evaluator.spellHitChance attacker defender cast).decide

def staffHitChance (attack : StaffAttack) : Traced HitChance :=
  evaluator.hitChance ⟨attacker, defender, .magic (.staff attack)⟩

def rollStaff (attack : StaffAttack) : StateT σ Traced Bool := do
  (← evaluator.staffHitChance attacker defender attack).decide

def magicHitChance : Traced HitChance :=
  evaluator.hitChance ⟨attacker, defender, .magic .innate⟩

def rollMagic : StateT σ Traced Bool := do
  (← evaluator.magicHitChance attacker defender).decide

/-- The chance of a melee attack that is met with magic defence. -/
def magicalMeleeHitChance (attackType : Option MeleeType) (style : Option MeleeStyle)
    (multiplier : Float) : Traced HitChance :=
  evaluator.hitChance ⟨attacker, defender, .multiStyle (.magicalMelee attackType style multiplier)⟩

def rollMagicalMelee (attackType : Option MeleeType) (style : Option MeleeStyle)
    (multiplier : Float) : StateT σ Traced Bool := do
  (← evaluator.magicalMeleeHitChance attacker defender attackType style multiplier).decide

/-- The chance of a melee attack that is met with ranged defence. -/
def rangedMeleeHitChance (attackType : Option MeleeType) (style : Option MeleeStyle)
    (blockType : Option RangedType) (multiplier : Float) : Traced HitChance :=
  evaluator.hitChance
    ⟨attacker, defender, .multiStyle (.rangedMelee attackType style blockType multiplier)⟩

def rollRangedMelee (attackType : Option MeleeType) (style : Option MeleeStyle)
    (blockType : Option RangedType) (multiplier : Float) : StateT σ Traced Bool := do
  (← evaluator.rangedMeleeHitChance attacker defender attackType style blockType multiplier).decide

/-- The chance of a magic attack that is met with ranged defence. -/
def rangedMagicHitChance (style : Option MagicStyle) (blockType : Option RangedType)
    (multiplier : Float) : Traced HitChance :=
  evaluator.hitChance ⟨attacker, defender, .multiStyle (.rangedMagic style blockType multiplier)⟩

def rollRangedMagic (style : Option MagicStyle) (blockType : Option RangedType)
    (multiplier : Float) : StateT σ Traced Bool := do
  (← evaluator.rangedMagicHitChance attacker defender style blockType multiplier).decide

/-- The chance of a ranged attack that is met with magic defence. -/
def magicalRangedHitChance (attackType : Option RangedType) (style : Option RangedStyle)
    (multiplier : Float) : Traced HitChance :=
  evaluator.hitChance ⟨attacker, defender, .multiStyle (.magicalRanged attackType style multiplier)⟩

def rollMagicalRanged (attackType : Option RangedType) (style : Option RangedStyle)
    (multiplier : Float) : StateT σ Traced Bool := do
  (← evaluator.magicalRangedHitChance attacker defender attackType style multiplier).decide

end CombatAccuracy.Evaluator
