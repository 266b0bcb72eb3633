import CombatAccuracy.FormulaKey
import CombatAccuracy.HitChance
import CombatAccuracy.Json.Layout
/-!
# Attacks as JSON

An attack is an object with its class as the only key. The parameters of the plain classes are
records with defaults; a multi-style attack is a record tagged with its combination.
-/
namespace CombatAccuracy
open Json (word ofWord? ofHeldWord? record ofOption nullable? float?)

namespace WeaponAttack

variable {τ σ : Type} [Vocabulary τ] [Vocabulary σ]

def layout : Layout (WeaponAttack τ σ) :=
  Layout.made WeaponAttack.mk
    |>.field "attack_type" (nullable? ofWord?) (some none)
    |>.field "attack_style" (nullable? ofWord?) (some none)
    |>.field "block_type" (nullable? ofWord?) (some none)
    |>.field "special_multiplier" float? (some plainMultiplier)

def ofJson? (json : Json) : Option (WeaponAttack τ σ) :=
  layout.read? json

def toJson (attack : WeaponAttack τ σ) : Json :=
  record [
    ("attack_type", ofOption word attack.attackType),
    ("attack_style", ofOption word attack.style),
    ("block_type", ofOption word attack.blockType),
    ("special_multiplier", .double attack.multiplier)]

end WeaponAttack

def SpellId.ofJson? (json : Json) : Option SpellId :=
  json.uint32?.map SpellId.mk

def SpellId.toJson (spell : SpellId) : Json :=
  .int spell.number.toNat

namespace SpellCast

/-- Only the spell must be there. -/
def layout : Layout SpellCast :=
  Layout.made SpellCast.mk
    |>.field "spell" SpellId.ofJson? none
    |>.field "spellbook" (nullable? ofWord?) (some none)
    |>.field "used_sunfire_rune" Json.bool? (some false)

def ofJson? (json : Json) : Option SpellCast :=
  layout.read? json

def toJson (cast : SpellCast) : Json :=
  record [
    ("spell", cast.spell.toJson),
    ("spellbook", ofOption word cast.spellbook),
    ("used_sunfire_rune", .bool cast.sunfireRune)]

end SpellCast

namespace StaffAttack

def layout : Layout StaffAttack :=
  Layout.made StaffAttack.mk
    |>.field "attack_style" (nullable? ofWord?) (some none)
    |>.field "special_multiplier" float? (some plainMultiplier)

def ofJson? (json : Json) : Option StaffAttack :=
  layout.read? json

def toJson (attack : StaffAttack) : Json :=
  record [
    ("attack_style", ofOption word attack.style),
    ("special_multiplier", .double attack.multiplier)]

end StaffAttack

namespace MagicAttack

/-- A magic attack: innate magic by its word, the others as the only member of an object. -/
def ofJson? (json : Json) : Option MagicAttack :=
  if json.word? = some "innate" then some .innate
  else do
    let (name, body) ← json.variant?
    match name with
    | "spell" => (SpellCast.ofJson? body).map .spell
    | "staff" => (StaffAttack.ofJson? body).map .staff
    | _ => none

def toJson : MagicAttack → Json
  | .spell cast => record [("spell", cast.toJson)]
  | .staff attack => record [("staff", attack.toJson)]
  | .innate => .string "innate"

end MagicAttack

namespace MultiStyleAttack

/-- The fields beside the combination. The multiplier must be there. -/
def layout : MultiStyle → Layout MultiStyleAttack
  | .magicalMelee =>
    Layout.made MultiStyleAttack.magicalMelee
      |>.field "attack_type" (nullable? ofHeldWord?) (some none)
      |>.field "attack_style" (nullable? ofHeldWord?) (some none)
      |>.field "special_multiplier" float? none
  | .rangedMelee =>
    Layout.made MultiStyleAttack.rangedMelee
      |>.field "attack_type" (nullable? ofHeldWord?) (some none)
      |>.field "attack_style" (nullable? ofHeldWord?) (some none)
      |>.field "block_type" (nullable? ofHeldWord?) (some none)
      |>.field "special_multiplier" float? none
  | .rangedMagic =>
    Layout.made MultiStyleAttack.rangedMagic
      |>.field "attack_style" (nullable? ofHeldWord?) (some none)
      |>.field "block_type" (nullable? ofHeldWord?) (some none)
      |>.field "special_multiplier" float? none
  | .magicalRanged =>
    Layout.made MultiStyleAttack.magicalRanged
      |>.field "attack_type" (nullable? ofHeldWord?) (some none)
      |>.field "attack_style" (nullable? ofHeldWord?) (some none)
      |>.field "special_multiplier" float? none

/-- The multi-style attack that a record tagged with its combination holds. -/
def ofJson? (room : Nat) (json : Json) : Option MultiStyleAttack := do
  let (tag, body) ← json.tagged? "combo" room
  let combo ← (Vocabulary.ofWord? tag : Option MultiStyle)
  (layout combo).readVariant? body

/-- A multi-style attack as a record, its combination first. -/
def toJson (attack : MultiStyleAttack) : Json :=
  record <| ("combo", word attack.combo) ::
    match attack with
    | .magicalMelee attackType style multiplier => [
        ("attack_type", ofOption word attackType),
        ("attack_style", ofOption word style),
        ("special_multiplier", .double multiplier)]
    | .rangedMelee attackType style blockType multiplier => [
        ("attack_type", ofOption word attackType),
        ("attack_style", ofOption word style),
        ("block_type", ofOption word blockType),
        ("special_multiplier", .double multiplier)]
    | .rangedMagic style blockType multiplier => [
        ("attack_style", ofOption word style),
        ("block_type", ofOption word blockType),
        ("special_multiplier", .double multiplier)]
    | .magicalRanged attackType style multiplier => [
        ("attack_type", ofOption word attackType),
        ("attack_style", ofOption word style),
        ("special_multiplier", .double multiplier)]

end MultiStyleAttack

namespace Attack

/-- The attack in an object with its class as the only key. -/
def ofJson? (room : Nat) (json : Json) : Option Attack := do
  let (name, body) ← json.variant?
  match ← (Vocabulary.ofWord? name : Option AttackClass) with
  | .melee => (WeaponAttack.ofJson? body).map .melee
  | .ranged => (WeaponAttack.ofJson? body).map .ranged
  | .magic => (MagicAttack.ofJson? body).map .magic
  | .multiStyle => (MultiStyleAttack.ofJson? (room - 1) body).map .multiStyle

def toJson (attack : Attack) : Json :=
  record [(Vocabulary.word attack.attackClass,
    match attack with
    | .melee attack => attack.toJson
    | .ranged attack => attack.toJson
    | .magic attack => attack.toJson
    | .multiStyle attack => attack.toJson)]

end Attack

namespace FormulaKey

def layout : Layout FormulaKey :=
  Layout.made FormulaKey.mk
    |>.field "pair" ofWord? none
    |>.field "channel" ofWord? none

def ofJson? (json : Json) : Option FormulaKey :=
  layout.read? json

def toJson (key : FormulaKey) : Json :=
  record [("pair", word key.matchup), ("channel", word key.attackClass)]

end FormulaKey

/-- A hit chance from its points, of which those beyond the scale are dropped. -/
def HitChance.ofJson? (json : Json) : Option HitChance :=
  json.uint32?.map fun points => .ofInt points.toNat

def HitChance.toJson (chance : HitChance) : Json :=
  .int chance.points

namespace Rolls

def layout : Layout Rolls :=
  Layout.made Rolls.mk
    |>.field "attack" Json.int64? none
    |>.field "defence" Json.int64? none

def ofJson? (json : Json) : Option Rolls :=
  layout.read? json

def toJson (rolls : Rolls) : Json :=
  record [("attack", .int rolls.attack.toInt), ("defence", .int rolls.defence.toInt)]

end Rolls
end CombatAccuracy
