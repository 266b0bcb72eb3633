import CombatAccuracy.Spell
import CombatAccuracy.Stance
/-!
# Combatants

A combatant is a set of attributes with a tag that makes it a player or an NPC. Attributes are given
as functions, so that a level may depend on the style in use; a combatant without equipment or a
spellbook leaves those out.
-/
namespace CombatAccuracy

/-- Whether a combatant follows the rules for players or those for NPCs. -/
inductive CombatantKind where
  | player
  | npc
  deriving DecidableEq, Repr

instance : Vocabulary CombatantKind where
  all := [.player, .npc]
  word
    | .player => "player"
    | .npc => "npc"
  mem_all a := by cases a <;> simp
  word_injective a b := by cases a <;> cases b <;> simp

/-- All that a roll may ask of a combatant. -/
structure Attributes where
  meleeLevel : Option MeleeStyle → Int32
  rangedLevel : Option RangedStyle → Int32
  magicLevel : Option MagicStyle → Int32
  defenceLevel : Channel → Int32
  offenceBonus : BonusColumn → Int32 := fun _ => 0
  defenceBonus : BonusColumn → Int32 := fun _ => 0
  stance : Stance
  spellbook : Option Spellbook := none

/-- Attributes under the rules for one kind. -/
structure Combatant where
  kind : CombatantKind
  attributes : Attributes

/-- The kind and stance of a combatant. -/
def Combatant.describe (combatant : Combatant) : String :=
  "Combatant(" ++ Vocabulary.titleCase (Vocabulary.word combatant.kind) ++ ", "
    ++ combatant.attributes.stance.describe ++ ")"

end CombatAccuracy
