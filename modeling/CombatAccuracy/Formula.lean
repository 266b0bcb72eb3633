import CombatAccuracy.HitChance
import CombatAccuracy.Roll
/-!
# Formulas

A formula turns an exchange of blows into an attack roll and a defence roll. There is one for every
matchup and class of attack; each carries the key it is found under, so the key that a table reports
is that of the rules it applies (`key_meleeTable` and its siblings).
-/
namespace CombatAccuracy

/-- An attack with parameters of one class, between two sets of attributes. -/
structure Exchange (params : Type) where
  attacker : Attributes
  defender : Attributes
  attack : params
  reference : MagicReference

/-- The rolls of one class of attacks in one matchup. -/
structure Formula (params : Type) where
  key : FormulaKey
  rolls : Exchange params → Rolls

namespace Formula

def hitChance {params : Type} (formula : Formula params) (exchange : Exchange params) : HitChance :=
  (formula.rolls exchange).hitChance

/-- What a formula reports and what it finds. -/
def apply {params : Type} (formula : Formula params) (exchange : Exchange params) :
    FormulaKey × Rolls :=
  (formula.key, formula.rolls exchange)

def melee (attacker defender : CombatantKind) : Formula MeleeAttack where
  key := ⟨.of attacker defender, .melee⟩
  rolls exchange :=
    let offence := MeleeOffence.settle attacker exchange.attack exchange.attacker.stance
    { attack := offence.roll exchange.attacker
      defence := meleeDefenceRoll exchange.defender offence.blockType }

def ranged (attacker defender : CombatantKind) : Formula RangedAttack where
  key := ⟨.of attacker defender, .ranged⟩
  rolls exchange :=
    let offence := RangedOffence.settle attacker exchange.attack exchange.attacker.stance
    { attack := offence.roll exchange.attacker
      defence := rangedDefenceRoll exchange.defender (rangedColumn defender offence.blockType) }

def magic (attacker defender : CombatantKind) : Formula MagicAttack where
  key := ⟨.of attacker defender, .magic⟩
  rolls exchange :=
    { attack := (MagicOffence.settle attacker exchange.attack exchange.attacker.stance).roll
        exchange.attacker
      defence := (MagicDefence.settle attacker exchange.attack exchange.attacker
        exchange.reference).roll exchange.defender }

def multiStyleOffence (kind : CombatantKind) (attacker : Attributes) : MultiStyleAttack → Int64
  | .magicalMelee attackType style multiplier | .rangedMelee attackType style _ multiplier =>
    (MeleeOffence.settle kind { attackType, style, multiplier } attacker.stance).roll attacker
  | .rangedMagic style _ multiplier =>
    (MagicOffence.staff kind { style, multiplier } attacker.stance).roll attacker
  | .magicalRanged attackType style multiplier =>
    (RangedOffence.settle kind { attackType, style, multiplier } attacker.stance).roll attacker

def multiStyleDefence (attacker defender : CombatantKind) (stance : Stance)
    (attributes : Attributes) : MultiStyleAttack → Int64
  | .magicalMelee .. | .magicalRanged .. => MagicDefence.plain.roll attributes
  | .rangedMelee _ _ blockType _ | .rangedMagic _ blockType _ =>
    rangedDefenceRoll attributes (rangedColumn defender (rangedBlock attacker blockType stance))

def multiStyle (attacker defender : CombatantKind) : Formula MultiStyleAttack where
  key := ⟨.of attacker defender, .multiStyle⟩
  rolls exchange :=
    { attack := multiStyleOffence attacker exchange.attacker exchange.attack
      defence := multiStyleDefence attacker defender exchange.attacker.stance exchange.defender
        exchange.attack }

def meleeTable (matchup : Matchup) : Formula MeleeAttack :=
  melee matchup.attacker matchup.defender

def rangedTable (matchup : Matchup) : Formula RangedAttack :=
  ranged matchup.attacker matchup.defender

def magicTable (matchup : Matchup) : Formula MagicAttack :=
  magic matchup.attacker matchup.defender

def multiStyleTable (matchup : Matchup) : Formula MultiStyleAttack :=
  multiStyle matchup.attacker matchup.defender

theorem key_meleeTable (m : Matchup) : (meleeTable m).key = ⟨m, .melee⟩ := by
  simp [meleeTable, melee]

theorem key_rangedTable (m : Matchup) : (rangedTable m).key = ⟨m, .ranged⟩ := by
  simp [rangedTable, ranged]

theorem key_magicTable (m : Matchup) : (magicTable m).key = ⟨m, .magic⟩ := by
  simp [magicTable, magic]

theorem key_multiStyleTable (m : Matchup) : (multiStyleTable m).key = ⟨m, .multiStyle⟩ := by
  simp [multiStyleTable, multiStyle]

/-- The key of the table entry that a key leads to. -/
def tableKey (key : FormulaKey) : FormulaKey :=
  match key.attackClass with
  | .melee => (meleeTable key.matchup).key
  | .ranged => (rangedTable key.matchup).key
  | .magic => (magicTable key.matchup).key
  | .multiStyle => (multiStyleTable key.matchup).key

end Formula

namespace Matchup
variable (matchup : Matchup) (attacker defender : Attributes) (reference : MagicReference)

/-- What the tables' entry for any attack in a matchup reports and finds. -/
def entry : Attack → FormulaKey × Rolls
  | .melee attack => (Formula.meleeTable matchup).apply { attacker, defender, attack, reference }
  | .ranged attack => (Formula.rangedTable matchup).apply { attacker, defender, attack, reference }
  | .magic attack => (Formula.magicTable matchup).apply { attacker, defender, attack, reference }
  | .multiStyle attack =>
    (Formula.multiStyleTable matchup).apply { attacker, defender, attack, reference }

def rolls (attack : Attack) : Rolls :=
  (matchup.entry attacker defender reference attack).2

theorem entry_eq (attack : Attack) :
    matchup.entry attacker defender reference attack =
      (⟨matchup, attack.attackClass⟩, matchup.rolls attacker defender reference attack) := by
  cases attack with
  | melee attack => exact Prod.ext (Formula.key_meleeTable matchup) rfl
  | ranged attack => exact Prod.ext (Formula.key_rangedTable matchup) rfl
  | magic attack => exact Prod.ext (Formula.key_magicTable matchup) rfl
  | multiStyle attack => exact Prod.ext (Formula.key_multiStyleTable matchup) rfl

end Matchup
end CombatAccuracy
