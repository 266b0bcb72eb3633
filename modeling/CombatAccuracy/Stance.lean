import CombatAccuracy.Style
/-!
# Stances

A combatant stands ready on one channel. The stance holds the attack type and style that an attack
on that channel uses when it names none itself; on the other channels it offers nothing.
-/
namespace CombatAccuracy

/-- The channel a combatant stands ready on, with its attack type and style there. -/
inductive Stance where
  | melee (attackType : MeleeType) (style : MeleeStyle)
  | ranged (attackType : RangedType) (style : RangedStyle)
  | magic (style : MagicStyle)
  deriving DecidableEq, Repr

namespace Stance

def unarmed : Stance := .melee .crush .accurate

def channel : Stance → Channel
  | .melee _ _ => .melee
  | .ranged _ _ => .ranged
  | .magic _ => .magic

def meleeType? : Stance → Option MeleeType
  | .melee t _ => some t
  | _ => none

def meleeStyle? : Stance → Option MeleeStyle
  | .melee _ s => some s
  | _ => none

def rangedType? : Stance → Option RangedType
  | .ranged t _ => some t
  | _ => none

def rangedStyle? : Stance → Option RangedStyle
  | .ranged _ s => some s
  | _ => none

def magicStyle? : Stance → Option MagicStyle
  | .magic s => some s
  | _ => none

/-- A stance as a value of its type, with its parts by name. -/
def describe : Stance → String
  | .melee t s => "Melee \x7b attack_type: " ++ Vocabulary.titleCase (Vocabulary.word t)
      ++ ", attack_style: " ++ Vocabulary.titleCase (Vocabulary.word s) ++ " \x7d"
  | .ranged t s => "Ranged \x7b attack_type: " ++ Vocabulary.titleCase (Vocabulary.word t)
      ++ ", attack_style: " ++ Vocabulary.titleCase (Vocabulary.word s) ++ " \x7d"
  | .magic s => "Magic \x7b attack_style: " ++ Vocabulary.titleCase (Vocabulary.word s) ++ " \x7d"

end Stance
end CombatAccuracy
