import CombatAccuracy.Proofs.Sources
import CombatAccuracy.Snapshot
/-!
# Building snapshots

A snapshot is built from a stance by a sequence of changes. A change gives values to the slots it
addresses and leaves all others as they are (`get_apply`), so a slot ends with what the last change
that addresses it gives, or with what it starts from (`get_build`). As nothing but its slots and its
stance tells a snapshot from another, changes that address no slot in common can trade places.
-/
namespace CombatAccuracy.Snapshot

/-- A step of building a snapshot. -/
inductive Change where
  | levels (channel : Channel) (offence defence : Int32)
  | offenceBonus (column : BonusColumn) (value : Int32)
  | defenceBonus (column : BonusColumn) (value : Int32)
  | spellbook (book : Spellbook)
  deriving DecidableEq

/-- What changes can give a value to. -/
inductive Slot where
  | offenceLevel (channel : Channel)
  | defenceLevel (channel : Channel)
  | offenceBonus (column : BonusColumn)
  | defenceBonus (column : BonusColumn)
  | spellbook
  deriving DecidableEq

namespace Slot

abbrev Value : Slot → Type
  | .offenceLevel _ | .defenceLevel _ | .offenceBonus _ | .defenceBonus _ => Int32
  | .spellbook => Option Spellbook

/-- What a slot holds before any change. -/
def initial : (slot : Slot) → slot.Value
  | .offenceLevel _ | .defenceLevel _ | .offenceBonus _ | .defenceBonus _ => (0 : Int32)
  | .spellbook => none

end Slot

namespace Change

def apply (snapshot : Snapshot) : Change → Snapshot
  | .levels channel offence defence => snapshot.withLevels channel offence defence
  | .offenceBonus column value => snapshot.withOffenceBonus column value
  | .defenceBonus column value => snapshot.withDefenceBonus column value
  | .spellbook book => snapshot.withSpellbook book

/-- The value that a change gives to a slot, if it addresses it. -/
def value? : Change → (slot : Slot) → Option slot.Value
  | .levels channel offence _, .offenceLevel other => if other = channel then some offence else none
  | .levels channel _ defence, .defenceLevel other => if other = channel then some defence else none
  | .offenceBonus column value, .offenceBonus other => if other = column then some value else none
  | .defenceBonus column value, .defenceBonus other => if other = column then some value else none
  | .spellbook book, .spellbook => some (some book)
  | _, _ => none

/-- Whether no slot is addressed by both of two changes. -/
def Apart (change other : Change) : Prop :=
  ∀ slot, change.value? slot = none ∨ other.value? slot = none

end Change

def get (snapshot : Snapshot) : (slot : Slot) → slot.Value
  | .offenceLevel channel => snapshot.offence.get channel
  | .defenceLevel channel => snapshot.defence.get channel
  | .offenceBonus column => snapshot.offenceBonuses.get column
  | .defenceBonus column => snapshot.defenceBonuses.get column
  | .spellbook => snapshot.spellbook

/-- The snapshot that these changes make, one after another, of nothing but a stance. -/
def build (stance : Stance) (changes : List Change) : Snapshot :=
  changes.foldl Change.apply (ofStance stance)

/-- What the last of these changes that addresses a slot gives to it. -/
def lastValue? (changes : List Change) (slot : Slot) : Option slot.Value :=
  (changes.filterMap fun change => change.value? slot).getLast?

theorem offenceLevel_attributes (snapshot : Snapshot) (channel : Channel)
    (style : Option channel.Style) :
    snapshot.attributes.offenceLevel channel style = snapshot.get (.offenceLevel channel) := by
  cases channel <;> rfl

/-- A change reaches the slots it addresses and no others. -/
theorem get_apply (snapshot : Snapshot) (change : Change) (slot : Slot) :
    (change.apply snapshot).get slot = (change.value? slot).getD (snapshot.get slot) := by
  cases change with
  | levels channel offence defence =>
    cases slot with
    | offenceLevel other | defenceLevel other =>
      simp only [Change.apply, Change.value?, withLevels, get, ChannelLevels.get_set]
      split <;> rfl
    | _ => rfl
  | offenceBonus column value =>
    cases slot with
    | offenceBonus other =>
      simp only [Change.apply, Change.value?, withOffenceBonus, get, BonusTable.get_set]
      split <;> rfl
    | _ => rfl
  | defenceBonus column value =>
    cases slot with
    | defenceBonus other =>
      simp only [Change.apply, Change.value?, withDefenceBonus, get, BonusTable.get_set]
      split <;> rfl
    | _ => rfl
  | spellbook book => cases slot <;> rfl

theorem stance_apply (snapshot : Snapshot) (change : Change) :
    (change.apply snapshot).stance = snapshot.stance := by
  cases change <;> rfl

theorem get_ofStance (stance : Stance) (slot : Slot) : (ofStance stance).get slot = slot.initial := by
  cases slot with
  | offenceLevel channel | defenceLevel channel => cases channel <;> rfl
  | offenceBonus column | defenceBonus column => cases column <;> rfl
  | spellbook => rfl

theorem lastValue?_cons (change : Change) (changes : List Change) (slot : Slot) :
    lastValue? (change :: changes) slot = (lastValue? changes slot).or (change.value? slot) := by
  rw [lastValue?, List.filterMap_cons, lastValue?]
  cases change.value? slot with
  | none => rw [Option.or_none]
  | some value =>
    rw [List.getLast?_cons]
    cases (changes.filterMap fun change => change.value? slot).getLast? <;> rfl

/-- After any changes a slot holds what the last one that addresses it gives. -/
theorem get_foldl_apply (snapshot : Snapshot) (changes : List Change) (slot : Slot) :
    (changes.foldl Change.apply snapshot).get slot =
      (lastValue? changes slot).getD (snapshot.get slot) := by
  induction changes generalizing snapshot with
  | nil => rfl
  | cons change changes ih =>
    rw [List.foldl_cons, ih, get_apply, lastValue?_cons]
    cases lastValue? changes slot <;> rfl

theorem stance_foldl_apply (snapshot : Snapshot) (changes : List Change) :
    (changes.foldl Change.apply snapshot).stance = snapshot.stance := by
  induction changes generalizing snapshot with
  | nil => rfl
  | cons change changes ih => rw [List.foldl_cons, ih, stance_apply]

theorem get_build (stance : Stance) (changes : List Change) (slot : Slot) :
    (build stance changes).get slot = (lastValue? changes slot).getD slot.initial := by
  rw [build, get_foldl_apply, get_ofStance]

theorem ext_get {snapshot other : Snapshot} (hstance : snapshot.stance = other.stance)
    (h : ∀ slot, snapshot.get slot = other.get slot) : snapshot = other := by
  obtain ⟨offence, defence, offenceBonuses, defenceBonuses, stance, spellbook⟩ := snapshot
  obtain rfl := ChannelLevels.ext_get fun channel => h (.offenceLevel channel)
  obtain rfl := ChannelLevels.ext_get fun channel => h (.defenceLevel channel)
  obtain rfl := BonusTable.ext_get fun column => h (.offenceBonus column)
  obtain rfl := BonusTable.ext_get fun column => h (.defenceBonus column)
  obtain rfl := h .spellbook
  obtain rfl := hstance
  rfl

theorem apply_comm {change other : Change} (h : change.Apart other) (snapshot : Snapshot) :
    other.apply (change.apply snapshot) = change.apply (other.apply snapshot) := by
  refine ext_get (by simp only [stance_apply]) ?_
  intro slot
  simp only [get_apply]
  rcases h slot with hnone | hnone <;> rw [hnone] <;> rfl

/-- Whatever is built, every attribute is what the last change that addresses it gives, or zero,
and no spellbook, if none does; the stance is the first one. Changes that address no attribute in
common make the same of every snapshot in either order. -/
theorem last_change_counts :
    (∀ (stance : Stance) (changes : List Change),
      let attributes := (build stance changes).attributes
      (∀ channel style, attributes.offenceLevel channel style =
        (lastValue? changes (.offenceLevel channel)).getD 0) ∧
      (∀ channel, attributes.defenceLevel channel =
        (lastValue? changes (.defenceLevel channel)).getD 0) ∧
      (∀ column, attributes.offenceBonus column =
        (lastValue? changes (.offenceBonus column)).getD 0) ∧
      (∀ column, attributes.defenceBonus column =
        (lastValue? changes (.defenceBonus column)).getD 0) ∧
      attributes.spellbook = (lastValue? changes .spellbook).getD none ∧
      attributes.stance = stance) ∧
    ∀ (change other : Change), change.Apart other → ∀ snapshot : Snapshot,
      other.apply (change.apply snapshot) = change.apply (other.apply snapshot) := by
  constructor
  · intro stance changes
    refine ⟨?_, ?_, ?_, ?_, ?_, ?_⟩
    · intro channel style
      rw [offenceLevel_attributes]
      exact get_build stance changes (.offenceLevel channel)
    · exact fun channel => get_build stance changes (.defenceLevel channel)
    · exact fun column => get_build stance changes (.offenceBonus column)
    · exact fun column => get_build stance changes (.defenceBonus column)
    · exact get_build stance changes .spellbook
    · exact stance_foldl_apply (ofStance stance) changes
  · intro change other hapart snapshot
    exact apply_comm hapart snapshot

/-- Changes that address some slots twice, on both sides of a column of the same name. -/
def archerChanges : List Change := [
  .levels .ranged 90 45, .offenceBonus .crush 30, .defenceBonus .crush (-5), .spellbook .lunar,
  .levels .ranged 112 0, .offenceBonus .ranged 150, .offenceBonus .crush (-2)]

theorem apart_crush : (Change.offenceBonus .crush 30).Apart (.defenceBonus .crush (-5)) := by
  intro slot
  cases slot with
  | offenceBonus column => exact .inr rfl
  | _ => exact .inl rfl

theorem last_change_counts_for_archer :
    let archer := build (.ranged .standard .rapid) archerChanges
    (archer.attributes.rangedLevel (some .rapid) = 112 ∧ archer.attributes.defenceLevel .ranged = 0 ∧
      archer.attributes.offenceBonus .crush = -2 ∧ archer.attributes.defenceBonus .crush = -5 ∧
      archer.attributes.offenceBonus .rangedLight = 0 ∧
      archer.attributes.spellbook = some .lunar) ∧
    (Change.offenceBonus .crush 30).Apart (.defenceBonus .crush (-5)) ∧
    (archer.withOffenceBonus .crush 30).withDefenceBonus .crush (-5) =
      (archer.withDefenceBonus .crush (-5)).withOffenceBonus .crush 30 := by
  intro archer
  obtain ⟨hoffence, hdefence, hoffenceBonus, hdefenceBonus, hspellbook, -⟩ :=
    last_change_counts.1 (.ranged .standard .rapid) archerChanges
  refine ⟨⟨?_, ?_, ?_, ?_, ?_, ?_⟩, apart_crush, ?_⟩
  · exact (hoffence .ranged (some .rapid)).trans rfl
  · exact (hdefence .ranged).trans rfl
  · exact (hoffenceBonus .crush).trans rfl
  · exact (hdefenceBonus .crush).trans rfl
  · exact (hoffenceBonus .rangedLight).trans rfl
  · exact hspellbook.trans rfl
  · exact last_change_counts.2 _ _ apart_crush archer

end CombatAccuracy.Snapshot
