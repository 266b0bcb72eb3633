import CombatAccuracy.Spell
/-!
# Attacks

What an attacker may ask for. An attack belongs to one of four classes; the parameters it leaves
open are settled from the attacker's stance, or ignored, by the sourcing rules.
-/
namespace CombatAccuracy

/-- The multiplier of an attack without a special. -/
def plainMultiplier : Float := 1

/-- An attack with a weapon, with what it names itself: its type and style, and the type it is to be
blocked as. -/
structure WeaponAttack (τ σ : Type) where
  attackType : Option τ := none
  style : Option σ := none
  blockType : Option τ := none
  multiplier : Float := plainMultiplier
  deriving DecidableEq

abbrev MeleeAttack := WeaponAttack MeleeType MeleeStyle

abbrev RangedAttack := WeaponAttack RangedType RangedStyle

/-- A spell cast from a named spellbook or the caster's own, with or without a sunfire rune. -/
structure SpellCast where
  spell : SpellId
  spellbook : Option Spellbook := none
  sunfireRune : Bool := false
  deriving DecidableEq

structure StaffAttack where
  style : Option MagicStyle := none
  multiplier : Float := plainMultiplier
  deriving DecidableEq

inductive MagicAttack where
  | spell (cast : SpellCast)
  | staff (attack : StaffAttack)
  | innate
  deriving DecidableEq

/-- A pairing of one channel's offence with another's defence. -/
inductive MultiStyle where
  | magicalMelee
  | rangedMelee
  | rangedMagic
  | magicalRanged
  deriving DecidableEq, Repr

instance : Vocabulary MultiStyle where
  all := [.magicalMelee, .rangedMelee, .rangedMagic, .magicalRanged]
  word
    | .magicalMelee => "magical_melee"
    | .rangedMelee => "ranged_melee"
    | .rangedMagic => "ranged_magic"
    | .magicalRanged => "magical_ranged"
  mem_all a := by cases a <;> simp
  word_injective a b := by cases a <;> cases b <;> simp

namespace MultiStyle

def offence : MultiStyle → Channel
  | .magicalMelee | .rangedMelee => .melee
  | .rangedMagic => .magic
  | .magicalRanged => .ranged

def defence : MultiStyle → Channel
  | .magicalMelee | .magicalRanged => .magic
  | .rangedMelee | .rangedMagic => .ranged

end MultiStyle

/-- An attack whose offence and defence are on different channels. -/
inductive MultiStyleAttack where
  | magicalMelee (attackType : Option MeleeType) (style : Option MeleeStyle) (multiplier : Float)
  | rangedMelee (attackType : Option MeleeType) (style : Option MeleeStyle)
      (blockType : Option RangedType) (multiplier : Float)
  | rangedMagic (style : Option MagicStyle) (blockType : Option RangedType) (multiplier : Float)
  | magicalRanged (attackType : Option RangedType) (style : Option RangedStyle) (multiplier : Float)
  deriving DecidableEq

namespace MultiStyleAttack

def combo : MultiStyleAttack → MultiStyle
  | .magicalMelee .. => .magicalMelee
  | .rangedMelee .. => .rangedMelee
  | .rangedMagic .. => .rangedMagic
  | .magicalRanged .. => .magicalRanged

/-- The attack of a pairing that leaves everything to the stance. -/
def ofCombo : MultiStyle → MultiStyleAttack
  | .magicalMelee => .magicalMelee none none plainMultiplier
  | .rangedMelee => .rangedMelee none none none plainMultiplier
  | .rangedMagic => .rangedMagic none none plainMultiplier
  | .magicalRanged => .magicalRanged none none plainMultiplier

end MultiStyleAttack

/-- The class of an attack, which picks its formula. -/
inductive AttackClass where
  | melee
  | ranged
  | magic
  | multiStyle
  deriving DecidableEq, Repr, Ord

instance : Vocabulary AttackClass where
  all := [.melee, .ranged, .magic, .multiStyle]
  word
    | .melee => "melee"
    | .ranged => "ranged"
    | .magic => "magic"
    | .multiStyle => "multi_style"
  mem_all a := by cases a <;> simp
  word_injective a b := by cases a <;> cases b <;> simp

inductive Attack where
  | melee (attack : MeleeAttack)
  | ranged (attack : RangedAttack)
  | magic (attack : MagicAttack)
  | multiStyle (attack : MultiStyleAttack)
  deriving DecidableEq

namespace Attack

def attackClass : Attack → AttackClass
  | .melee _ => .melee
  | .ranged _ => .ranged
  | .magic _ => .magic
  | .multiStyle _ => .multiStyle

/-- The attack with another multiplier; spells and innate magic have none to replace. -/
def withMultiplier (multiplier : Float) : Attack → Attack
  | .melee attack => .melee { attack with multiplier }
  | .ranged attack => .ranged { attack with multiplier }
  | .magic (.staff attack) => .magic (.staff { attack with multiplier })
  | .magic attack => .magic attack
  | .multiStyle (.magicalMelee t s _) => .multiStyle (.magicalMelee t s multiplier)
  | .multiStyle (.rangedMelee t s b _) => .multiStyle (.rangedMelee t s b multiplier)
  | .multiStyle (.rangedMagic s b _) => .multiStyle (.rangedMagic s b multiplier)
  | .multiStyle (.magicalRanged t s _) => .multiStyle (.magicalRanged t s multiplier)

end Attack
end CombatAccuracy
