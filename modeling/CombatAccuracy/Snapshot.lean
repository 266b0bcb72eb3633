import CombatAccuracy.Combatant
/-!
# Snapshots

A snapshot is a combatant's attributes as plain data: levels and bonuses for offence and defence, a
stance and perhaps a spellbook. It is built up one change at a time, and `attributes` reads it;
levels read this way ignore the style.
-/
namespace CombatAccuracy

structure ChannelLevels where
  melee : Int32 := 0
  ranged : Int32 := 0
  magic : Int32 := 0
  deriving DecidableEq

namespace ChannelLevels

def get (levels : ChannelLevels) : Channel → Int32
  | .melee => levels.melee
  | .ranged => levels.ranged
  | .magic => levels.magic

def set (levels : ChannelLevels) (channel : Channel) (level : Int32) : ChannelLevels :=
  match channel with
  | .melee => { levels with melee := level }
  | .ranged => { levels with ranged := level }
  | .magic => { levels with magic := level }

theorem get_set (levels : ChannelLevels) (channel other : Channel) (level : Int32) :
    (levels.set channel level).get other = if other = channel then level else levels.get other := by
  cases channel <;> cases other <;> rfl

def ofChannels (value : Channel → Int32) : ChannelLevels where
  melee := value .melee
  ranged := value .ranged
  magic := value .magic

@[simp] theorem get_ofChannels (value : Channel → Int32) (channel : Channel) :
    (ofChannels value).get channel = value channel := by
  cases channel <;> rfl

theorem ofChannels_get (levels : ChannelLevels) : ofChannels levels.get = levels :=
  rfl

theorem ext_get {levels other : ChannelLevels}
    (h : ∀ channel, levels.get channel = other.get channel) : levels = other := by
  rw [← ofChannels_get levels, funext h, ofChannels_get]

end ChannelLevels

/-- A combatant's attributes at one moment. -/
structure Snapshot where
  offence : ChannelLevels := {}
  defence : ChannelLevels := {}
  offenceBonuses : BonusTable := {}
  defenceBonuses : BonusTable := {}
  stance : Stance := .unarmed
  spellbook : Option Spellbook := none
  deriving DecidableEq

namespace Snapshot

/-- Nothing but a stance. -/
def ofStance (stance : Stance) : Snapshot :=
  { stance }

def withLevels (snapshot : Snapshot) (channel : Channel) (offence defence : Int32) : Snapshot :=
  { snapshot with
    offence := snapshot.offence.set channel offence
    defence := snapshot.defence.set channel defence }

def withOffenceBonus (snapshot : Snapshot) (column : BonusColumn) (value : Int32) : Snapshot :=
  { snapshot with offenceBonuses := snapshot.offenceBonuses.set column value }

def withDefenceBonus (snapshot : Snapshot) (column : BonusColumn) (value : Int32) : Snapshot :=
  { snapshot with defenceBonuses := snapshot.defenceBonuses.set column value }

def withSpellbook (snapshot : Snapshot) (book : Spellbook) : Snapshot :=
  { snapshot with spellbook := some book }

def attributes (snapshot : Snapshot) : Attributes where
  meleeLevel _ := snapshot.offence.melee
  rangedLevel _ := snapshot.offence.ranged
  magicLevel _ := snapshot.offence.magic
  defenceLevel := snapshot.defence.get
  offenceBonus := snapshot.offenceBonuses.get
  defenceBonus := snapshot.defenceBonuses.get
  stance := snapshot.stance
  spellbook := snapshot.spellbook

end Snapshot
end CombatAccuracy
