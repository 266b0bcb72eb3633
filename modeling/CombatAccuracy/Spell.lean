import CombatAccuracy.Bonus
/-!
# Spells

Spells are known by number and belong to spellbooks. What a spell's target defends with is reference
data, which the formulas only look up.
-/
namespace CombatAccuracy

inductive Spellbook where
  | standard
  | ancients
  | lunar
  | arceuus
  deriving DecidableEq, Repr

instance : Vocabulary Spellbook where
  all := [.standard, .ancients, .lunar, .arceuus]
  word
    | .standard => "standard"
    | .ancients => "ancients"
    | .lunar => "lunar"
    | .arceuus => "arceuus"
  mem_all a := by cases a <;> simp
  word_injective a b := by cases a <;> cases b <;> simp

structure SpellId where
  number : UInt32
  deriving DecidableEq, Repr

namespace SpellId

/-- The number alone, in decimal. -/
def text (spell : SpellId) : String :=
  toString spell.number.toNat

/-- The number marked as a spell's. -/
def describe (spell : SpellId) : String :=
  "SpellId(" ++ spell.text ++ ")"

end SpellId

/-- What the formulas look up about magic: how far a sunfire rune lowers the target's magic defence
level, and the column the target defends a spell with. -/
structure MagicReference where
  sunfireReduction : Int32
  spellColumn : SpellId → Spellbook → BonusColumn

end CombatAccuracy
