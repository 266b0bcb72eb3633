import CombatAccuracy.Vocabulary
/-!
# Channels, attack types and attack styles

The three ways of fighting, and for each the kinds of weapon and the ways of using one.
-/
namespace CombatAccuracy

/-- A way of fighting. -/
inductive Channel where
  | melee
  | ranged
  | magic
  deriving DecidableEq, Repr

/-- How a melee weapon strikes. -/
inductive MeleeType where
  | stab
  | slash
  | crush
  deriving DecidableEq, Repr

/-- How heavy a ranged weapon's ammunition is. -/
inductive RangedType where
  | light
  | standard
  | heavy
  deriving DecidableEq, Repr

/-- How a melee weapon is used. -/
inductive MeleeStyle where
  | accurate
  | aggressive
  | defensive
  | controlled
  deriving DecidableEq, Repr

inductive RangedStyle where
  | accurate
  | rapid
  | longRange
  deriving DecidableEq, Repr

inductive MagicStyle where
  | accurate
  | longRange
  | defensive
  deriving DecidableEq, Repr

instance : Vocabulary Channel where
  all := [.melee, .ranged, .magic]
  word
    | .melee => "melee"
    | .ranged => "ranged"
    | .magic => "magic"
  mem_all a := by cases a <;> simp
  word_injective a b := by cases a <;> cases b <;> simp

instance : Vocabulary MeleeType where
  all := [.stab, .slash, .crush]
  word
    | .stab => "stab"
    | .slash => "slash"
    | .crush => "crush"
  mem_all a := by cases a <;> simp
  word_injective a b := by cases a <;> cases b <;> simp

instance : Vocabulary RangedType where
  all := [.light, .standard, .heavy]
  word
    | .light => "light"
    | .standard => "standard"
    | .heavy => "heavy"
  mem_all a := by cases a <;> simp
  word_injective a b := by cases a <;> cases b <;> simp

instance : Vocabulary MeleeStyle where
  all := [.accurate, .aggressive, .defensive, .controlled]
  word
    | .accurate => "accurate"
    | .aggressive => "aggressive"
    | .defensive => "defensive"
    | .controlled => "controlled"
  mem_all a := by cases a <;> simp
  word_injective a b := by cases a <;> cases b <;> simp

instance : Vocabulary RangedStyle where
  all := [.accurate, .rapid, .longRange]
  word
    | .accurate => "accurate"
    | .rapid => "rapid"
    | .longRange => "long_range"
  mem_all a := by cases a <;> simp
  word_injective a b := by cases a <;> cases b <;> simp

instance : Vocabulary MagicStyle where
  all := [.accurate, .longRange, .defensive]
  word
    | .accurate => "accurate"
    | .longRange => "long_range"
    | .defensive => "defensive"
  mem_all a := by cases a <;> simp
  word_injective a b := by cases a <;> cases b <;> simp

end CombatAccuracy
