import CombatAccuracy.FormulaKey
/-!
# Sourcing

What an attack leaves open is settled by the attacker's kind. A player's attack overrides its
stance, and its multiplier counts. An NPC rolls without a style and without a multiplier, and of
all its attack asks for only a melee attack type is heard. The same holds of what the defender
blocks with.
-/
namespace CombatAccuracy

/-- A multiplier fit for a roll: never negative, and a number. -/
def soundMultiplier (multiplier : Float) : Float :=
  if multiplier.isNaN then 0 else if multiplier < 0 then 0 else multiplier

/-- The attacker's side of an attack with a weapon, and the type it is blocked as, with everything
settled. -/
structure WeaponOffence (τ σ : Type) where
  attackType : Option τ
  style : Option σ
  blockType : Option τ
  multiplier : Float

abbrev MeleeOffence := WeaponOffence MeleeType MeleeStyle

abbrev RangedOffence := WeaponOffence RangedType RangedStyle

structure MagicOffence where
  style : Option MagicStyle
  multiplier : Float

/-- The defender's side of a magic attack: the column it blocks with and the levels it loses. -/
structure MagicDefence where
  column : BonusColumn
  levelReduction : Int32
  deriving DecidableEq

/-- The defence against magic that is no player's spell. -/
def MagicDefence.plain : MagicDefence := ⟨.magic, 0⟩

namespace WeaponOffence

/-- An attack that overrides a stance's type and style. The defender blocks what hits it, unless the
attack names another type. -/
def overriding {τ σ : Type} (attack : WeaponAttack τ σ) (type? : Option τ) (style? : Option σ) :
    WeaponOffence τ σ :=
  let attackType := attack.attackType.or type?
  { attackType
    style := attack.style.or style?
    blockType := attack.blockType.or attackType
    multiplier := soundMultiplier attack.multiplier }

/-- An attack of a type and nothing else. -/
def bare {τ σ : Type} (type? : Option τ) : WeaponOffence τ σ where
  attackType := type?
  style := none
  blockType := type?
  multiplier := plainMultiplier

end WeaponOffence

/-- An NPC strikes with the type that its attack names, else with its stance's. -/
def MeleeOffence.settle (kind : CombatantKind) (attack : MeleeAttack) (stance : Stance) :
    MeleeOffence :=
  match kind with
  | .player => .overriding attack stance.meleeType? stance.meleeStyle?
  | .npc => .bare (attack.attackType.or stance.meleeType?)

/-- An NPC shoots what its stance holds, whatever its attack names. -/
def RangedOffence.settle (kind : CombatantKind) (attack : RangedAttack) (stance : Stance) :
    RangedOffence :=
  match kind with
  | .player => .overriding attack stance.rangedType? stance.rangedStyle?
  | .npc => .bare stance.rangedType?

namespace MagicOffence

/-- Magic without a weapon: a player keeps the style of its stance. -/
def innate (kind : CombatantKind) (stance : Stance) : MagicOffence :=
  match kind with
  | .player => ⟨stance.magicStyle?, plainMultiplier⟩
  | .npc => ⟨none, plainMultiplier⟩

def staff (kind : CombatantKind) (attack : StaffAttack) (stance : Stance) : MagicOffence :=
  match kind with
  | .player => ⟨attack.style.or stance.magicStyle?, soundMultiplier attack.multiplier⟩
  | .npc => innate .npc stance

/-- A spell is rolled like innate magic. -/
def settle (kind : CombatantKind) (attack : MagicAttack) (stance : Stance) : MagicOffence :=
  match attack with
  | .staff attack => staff kind attack stance
  | .spell _ | .innate => innate kind stance

end MagicOffence

/-- The book a spell is cast from: the cast's, else the caster's, else the standard one. -/
def SpellCast.bookFor (explicit current : Option Spellbook) : Spellbook :=
  (explicit.or current).getD .standard

/-- Only a player's spell chooses the column it is blocked with, and only its sunfire rune costs the
defender levels. -/
def MagicDefence.settle (kind : CombatantKind) (attack : MagicAttack) (attacker : Attributes)
    (reference : MagicReference) : MagicDefence :=
  match kind, attack with
  | .player, .spell cast =>
    let book := SpellCast.bookFor cast.spellbook attacker.spellbook
    { column := reference.spellColumn cast.spell book
      levelReduction := if cast.sunfireRune then reference.sunfireReduction else 0 }
  | _, _ => plain

/-- What an attack of another channel is blocked with at range: a player's attack names it, an NPC's
follows from its stance. -/
def rangedBlock (attacker : CombatantKind) (blockType : Option RangedType) (stance : Stance) :
    Option RangedType :=
  match attacker with
  | .player => blockType
  | .npc => stance.rangedType?

/-- The column a defender blocks ranged attacks with: only NPCs tell the weights of ammunition
apart. -/
def rangedColumn (defender : CombatantKind) (blockType : Option RangedType) : BonusColumn :=
  match defender with
  | .player => .ranged
  | .npc => (blockType.map RangedType.column).getD .ranged

end CombatAccuracy
