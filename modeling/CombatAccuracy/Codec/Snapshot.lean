import CombatAccuracy.Json.Layout
import CombatAccuracy.Snapshot
/-!
# Combatants as JSON

Tables and snapshots are records whose missing fields have their defaults; a stance is a record
tagged with its channel.
-/
namespace CombatAccuracy
open Json (word ofWord? ofHeldWord? record int32? nullable?)

namespace BonusTable

def layout : Layout BonusTable :=
  Layout.made BonusTable.mk
    |>.field "stab" int32? (some 0)
    |>.field "slash" int32? (some 0)
    |>.field "crush" int32? (some 0)
    |>.field "ranged" int32? (some 0)
    |>.field "ranged_light" int32? (some 0)
    |>.field "ranged_standard" int32? (some 0)
    |>.field "ranged_heavy" int32? (some 0)
    |>.field "magic" int32? (some 0)

def ofJson? (json : Json) : Option BonusTable :=
  layout.read? json

def toJson (table : BonusTable) : Json :=
  record [
    ("stab", .int table.stab.toInt),
    ("slash", .int table.slash.toInt),
    ("crush", .int table.crush.toInt),
    ("ranged", .int table.ranged.toInt),
    ("ranged_light", .int table.rangedLight.toInt),
    ("ranged_standard", .int table.rangedStandard.toInt),
    ("ranged_heavy", .int table.rangedHeavy.toInt),
    ("magic", .int table.magic.toInt)]

end BonusTable

namespace ChannelLevels

def layout : Layout ChannelLevels :=
  Layout.made ChannelLevels.mk
    |>.field "melee" int32? (some 0)
    |>.field "ranged" int32? (some 0)
    |>.field "magic" int32? (some 0)

def ofJson? (json : Json) : Option ChannelLevels :=
  layout.read? json

def toJson (levels : ChannelLevels) : Json :=
  record [
    ("melee", .int levels.melee.toInt),
    ("ranged", .int levels.ranged.toInt),
    ("magic", .int levels.magic.toInt)]

end ChannelLevels

namespace Stance

/-- The fields beside the channel. -/
def layout : Channel → Layout Stance
  | .melee =>
    Layout.made Stance.melee
      |>.field "attack_type" ofHeldWord? none
      |>.field "attack_style" ofHeldWord? none
  | .ranged =>
    Layout.made Stance.ranged
      |>.field "attack_type" ofHeldWord? none
      |>.field "attack_style" ofHeldWord? none
  | .magic => Layout.made Stance.magic |>.field "attack_style" ofHeldWord? none

/-- The stance that a record tagged with its channel holds. -/
def ofJson? (room : Nat) (json : Json) : Option Stance := do
  let (tag, body) ← json.tagged? "channel" room
  let channel ← (Vocabulary.ofWord? tag : Option Channel)
  (layout channel).readVariant? body

/-- A stance as a record, its channel first. -/
def toJson (stance : Stance) : Json :=
  record <| ("channel", word stance.channel) ::
    match stance with
    | .melee attackType style => [("attack_type", word attackType), ("attack_style", word style)]
    | .ranged attackType style => [("attack_type", word attackType), ("attack_style", word style)]
    | .magic style => [("attack_style", word style)]

end Stance

namespace Snapshot

def layout (room : Nat) : Layout Snapshot :=
  Layout.made Snapshot.mk
    |>.field "offence" ChannelLevels.ofJson? (some {})
    |>.field "defence" ChannelLevels.ofJson? (some {})
    |>.field "offence_bonuses" BonusTable.ofJson? (some {})
    |>.field "defence_bonuses" BonusTable.ofJson? (some {})
    |>.field "stance" (Stance.ofJson? (room - 1)) (some .unarmed)
    |>.field "spellbook" (nullable? ofWord?) (some none)

def ofJson? (room : Nat) (json : Json) : Option Snapshot :=
  (layout room).read? json

def toJson (snapshot : Snapshot) : Json :=
  record [
    ("offence", snapshot.offence.toJson),
    ("defence", snapshot.defence.toJson),
    ("offence_bonuses", snapshot.offenceBonuses.toJson),
    ("defence_bonuses", snapshot.defenceBonuses.toJson),
    ("stance", snapshot.stance.toJson),
    ("spellbook", .ofOption word snapshot.spellbook)]

end Snapshot
end CombatAccuracy
