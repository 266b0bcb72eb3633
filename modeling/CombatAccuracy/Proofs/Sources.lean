import CombatAccuracy.Evaluator
/-!
# What rolls are made of

The formulas are split by class of attack and by kind of attacker. Here the same rules are stated
once for all attacks: an attack names what it names on an offence channel and a defence channel, the
attacker's kind decides what of it counts, and each roll is a level times an offset bonus
(`rolls_sources`).
-/
namespace CombatAccuracy

/-- The attack types that a channel tells apart. -/
abbrev Channel.AttackType : Channel → Type
  | .melee => MeleeType
  | .ranged => RangedType
  | .magic => Empty

abbrev Channel.Style : Channel → Type
  | .melee => MeleeStyle
  | .ranged => RangedStyle
  | .magic => MagicStyle

namespace Stance

/-- The attack type that a stance offers on a channel: none off its own. -/
def typeOn : Stance → (channel : Channel) → Option channel.AttackType
  | .melee attackType _, .melee => some attackType
  | .ranged attackType _, .ranged => some attackType
  | _, _ => none

/-- The style that a stance offers on a channel: none off its own. -/
def styleOn : Stance → (channel : Channel) → Option channel.Style
  | .melee _ style, .melee => some style
  | .ranged _ style, .ranged => some style
  | .magic style, .magic => some style
  | _, _ => none

end Stance

namespace Attack

def offenceChannel : Attack → Channel
  | .melee _ => .melee
  | .ranged _ => .ranged
  | .magic _ => .magic
  | .multiStyle attack => attack.combo.offence

def defenceChannel : Attack → Channel
  | .melee _ => .melee
  | .ranged _ => .ranged
  | .magic _ => .magic
  | .multiStyle attack => attack.combo.defence

def namedType : (attack : Attack) → Option attack.offenceChannel.AttackType
  | .melee attack => attack.attackType
  | .ranged attack => attack.attackType
  | .magic _ => none
  | .multiStyle (.magicalMelee attackType _ _) => attackType
  | .multiStyle (.rangedMelee attackType _ _ _) => attackType
  | .multiStyle (.rangedMagic _ _ _) => none
  | .multiStyle (.magicalRanged attackType _ _) => attackType

/-- The style that an attack names; a spell names none. -/
def namedStyle : (attack : Attack) → Option attack.offenceChannel.Style
  | .melee attack => attack.style
  | .ranged attack => attack.style
  | .magic (.spell _) => none
  | .magic (.staff attack) => attack.style
  | .magic .innate => none
  | .multiStyle (.magicalMelee _ style _) => style
  | .multiStyle (.rangedMelee _ style _ _) => style
  | .multiStyle (.rangedMagic style _ _) => style
  | .multiStyle (.magicalRanged _ style _) => style

/-- The type that an attack names to be blocked as. -/
def namedBlock : (attack : Attack) → Option attack.defenceChannel.AttackType
  | .melee attack => attack.blockType
  | .ranged attack => attack.blockType
  | .magic _ => none
  | .multiStyle (.magicalMelee _ _ _) => none
  | .multiStyle (.rangedMelee _ _ blockType _) => blockType
  | .multiStyle (.rangedMagic _ blockType _) => blockType
  | .multiStyle (.magicalRanged _ _ _) => none

/-- The multiplier of an attack that has one: a spell and innate magic have none. -/
def namedMultiplier : Attack → Option Float
  | .melee attack => some attack.multiplier
  | .ranged attack => some attack.multiplier
  | .magic (.spell _) => none
  | .magic (.staff attack) => some attack.multiplier
  | .magic .innate => none
  | .multiStyle (.magicalMelee _ _ multiplier) => some multiplier
  | .multiStyle (.rangedMelee _ _ _ multiplier) => some multiplier
  | .multiStyle (.rangedMagic _ _ multiplier) => some multiplier
  | .multiStyle (.magicalRanged _ _ multiplier) => some multiplier

/-- The attack type that counts: an NPC's stance gives way to its attack in melee only. -/
def typeFor (kind : CombatantKind) (stance : Stance) (attack : Attack) :
    Option attack.offenceChannel.AttackType :=
  let offered := stance.typeOn attack.offenceChannel
  match kind with
  | .player => attack.namedType.or offered
  | .npc => if attack.offenceChannel = .melee then attack.namedType.or offered else offered

/-- The style that counts: none for an NPC. -/
def styleFor (kind : CombatantKind) (stance : Stance) (attack : Attack) :
    Option attack.offenceChannel.Style :=
  match kind with
  | .player => attack.namedStyle.or (stance.styleOn attack.offenceChannel)
  | .npc => none

/-- The multiplier that counts: for a player's attack that has one, 0 in place of what is negative
or no number. -/
def multiplierFor (kind : CombatantKind) (attack : Attack) : Float :=
  match kind, attack.namedMultiplier with
  | .player, some multiplier => if multiplier.isNaN || multiplier < 0 then 0 else multiplier
  | _, _ => 1

/-- The type that the defender blocks. Without one named by a player, an attack on a single channel
is blocked as what it is, and any other as nothing in particular; an NPC's attack on a ranged
defence is blocked as its stance's ammunition. -/
def blockFor (kind : CombatantKind) (stance : Stance) (attack : Attack) :
    Option attack.defenceChannel.AttackType :=
  match kind, attack with
  | .player, .melee blow => (namedBlock (.melee blow)).or (typeFor .player stance (.melee blow))
  | .player, .ranged shot => (namedBlock (.ranged shot)).or (typeFor .player stance (.ranged shot))
  | .player, .magic _ => none
  | .player, .multiStyle attack => namedBlock (.multiStyle attack)
  | .npc, .melee blow => typeFor .npc stance (.melee blow)
  | .npc, attack => stance.typeOn attack.defenceChannel

end Attack

def Attributes.offenceLevel (attributes : Attributes) :
    (channel : Channel) → Option channel.Style → Int32
  | .melee => attributes.meleeLevel
  | .ranged => attributes.rangedLevel
  | .magic => attributes.magicLevel

/-- The column of an offence bonus; an untyped melee attack has none. -/
def Channel.offenceColumn :
    (channel : Channel) → Option channel.AttackType → Option BonusColumn
  | .melee, attackType => attackType.map MeleeType.column
  | .ranged, _ => some .ranged
  | .magic, _ => some .magic

/-- The column of a defence bonus; an untyped melee attack is met with none, and only an NPC has
columns for the weights of ammunition. -/
def Channel.defenceColumn (defender : CombatantKind) :
    (channel : Channel) → Option channel.AttackType → Option BonusColumn
  | .melee, blockType => blockType.map MeleeType.column
  | .ranged, none => some .ranged
  | .ranged, some blockType => if defender = .npc then some blockType.column else some .ranged
  | .magic, _ => some .magic

namespace Engagement
variable (engagement : Engagement) (reference : MagicReference)

def offenceLevel : Int32 :=
  engagement.attacker.attributes.offenceLevel engagement.attack.offenceChannel
    (engagement.attack.styleFor engagement.attacker.kind engagement.attacker.attributes.stance)

def offenceBonus : Int32 :=
  bonusIn engagement.attacker.attributes.offenceBonus
    (engagement.attack.offenceChannel.offenceColumn
      (engagement.attack.typeFor engagement.attacker.kind engagement.attacker.attributes.stance))

def multiplier : Float :=
  engagement.attack.multiplierFor engagement.attacker.kind

def playerCast? : Option SpellCast :=
  match engagement.attacker.kind, engagement.attack with
  | .player, .magic (.spell cast) => some cast
  | _, _ => none

/-- The levels that a player's spell costs the defender. -/
def reduction : Int32 :=
  match engagement.playerCast? with
  | some cast => if cast.sunfireRune then reference.sunfireReduction else 0
  | none => 0

/-- The defender's level, which only a positive reduction lowers, and never below zero. -/
def defenceLevel : Int :=
  let level := engagement.defender.attributes.defenceLevel engagement.attack.defenceChannel
  let reduction := engagement.reduction reference
  if 0 < reduction then max 0 (level.toInt - reduction.toInt) else level.toInt

/-- The column that the defender blocks with: a player's spell picks its own. -/
def defenceColumn : Option BonusColumn :=
  match engagement.playerCast? with
  | some cast =>
    let book := (cast.spellbook.or engagement.attacker.attributes.spellbook).getD .standard
    some (reference.spellColumn cast.spell book)
  | none =>
    engagement.attack.defenceChannel.defenceColumn engagement.defender.kind
      (engagement.attack.blockFor engagement.attacker.kind engagement.attacker.attributes.stance)

def defenceBonus : Int32 :=
  bonusIn engagement.defender.attributes.defenceBonus (engagement.defenceColumn reference)

def attackRoll : Int64 :=
  scaleRoll (baseRoll engagement.offenceLevel engagement.offenceBonus) engagement.multiplier

def defenceRoll : Int64 :=
  baseRoll
    (reducedLevel (engagement.defender.attributes.defenceLevel engagement.attack.defenceChannel)
      (engagement.reduction reference))
    (engagement.defenceBonus reference)

end Engagement

@[simp] theorem Stance.typeOn_melee (stance : Stance) :
    stance.typeOn .melee = stance.meleeType? := by
  cases stance <;> rfl

@[simp] theorem Stance.typeOn_ranged (stance : Stance) :
    stance.typeOn .ranged = stance.rangedType? := by
  cases stance <;> rfl

@[simp] theorem Stance.typeOn_magic (stance : Stance) : stance.typeOn .magic = none := by
  cases stance <;> rfl

@[simp] theorem Stance.styleOn_melee (stance : Stance) :
    stance.styleOn .melee = stance.meleeStyle? := by
  cases stance <;> rfl

@[simp] theorem Stance.styleOn_ranged (stance : Stance) :
    stance.styleOn .ranged = stance.rangedStyle? := by
  cases stance <;> rfl

@[simp] theorem Stance.styleOn_magic (stance : Stance) :
    stance.styleOn .magic = stance.magicStyle? := by
  cases stance <;> rfl

theorem soundMultiplier_eq (multiplier : Float) :
    soundMultiplier multiplier =
      if multiplier.isNaN || multiplier < 0 then 0 else multiplier := by
  unfold soundMultiplier
  cases multiplier.isNaN with
  | false => simp only [Bool.false_or, Bool.false_eq_true, if_false, decide_eq_true_eq]
  | true => rfl

private theorem meleeOffence_roll (kind : CombatantKind) (attributes : Attributes)
    (defender : Combatant) (blow : MeleeAttack) :
    (MeleeOffence.settle kind blow attributes.stance).roll attributes =
      Engagement.attackRoll ⟨⟨kind, attributes⟩, defender, .melee blow⟩ := by
  unfold MeleeOffence.roll Engagement.attackRoll Engagement.offenceLevel Engagement.offenceBonus
    Engagement.multiplier
  cases kind with
  | player =>
    simp only [MeleeOffence.settle, WeaponOffence.overriding, soundMultiplier_eq]
    simp only [Attack.styleFor, Attack.typeFor, Attack.offenceChannel, Stance.typeOn_melee,
      Stance.styleOn_melee]
    rfl
  | npc =>
    simp only [MeleeOffence.settle, WeaponOffence.bare]
    simp only [Attack.styleFor, Attack.typeFor, Attack.offenceChannel, Stance.typeOn_melee, if_true]
    rfl

private theorem rangedOffence_roll (kind : CombatantKind) (attributes : Attributes)
    (defender : Combatant) (shot : RangedAttack) :
    (RangedOffence.settle kind shot attributes.stance).roll attributes =
      Engagement.attackRoll ⟨⟨kind, attributes⟩, defender, .ranged shot⟩ := by
  unfold RangedOffence.roll Engagement.attackRoll Engagement.offenceLevel Engagement.offenceBonus
    Engagement.multiplier
  cases kind with
  | player =>
    simp only [RangedOffence.settle, WeaponOffence.overriding, soundMultiplier_eq]
    simp only [Attack.styleFor, Attack.offenceChannel, Stance.styleOn_ranged]
    rfl
  | npc => rfl

private theorem magicOffence_roll (kind : CombatantKind) (attributes : Attributes)
    (defender : Combatant) (attack : MagicAttack) :
    (MagicOffence.settle kind attack attributes.stance).roll attributes =
      Engagement.attackRoll ⟨⟨kind, attributes⟩, defender, .magic attack⟩ := by
  unfold MagicOffence.roll Engagement.attackRoll Engagement.offenceLevel Engagement.offenceBonus
    Engagement.multiplier
  cases kind with
  | player =>
    cases attack <;>
      simp only [MagicOffence.settle, MagicOffence.innate, MagicOffence.staff, soundMultiplier_eq,
        Attack.styleFor, Attack.offenceChannel, Stance.styleOn_magic] <;> rfl
  | npc => cases attack <;> rfl

theorem attack_rolls (evaluator : Evaluator) (engagement : Engagement) :
    (evaluator.rolls engagement).attack = engagement.attackRoll := by
  obtain ⟨⟨kind, attributes⟩, defender, attack⟩ := engagement
  cases attack with
  | melee blow =>
    rw [Evaluator.rolls_melee]
    exact meleeOffence_roll kind attributes defender blow
  | ranged shot =>
    rw [Evaluator.rolls_ranged]
    exact rangedOffence_roll kind attributes defender shot
  | magic attack =>
    rw [Evaluator.rolls_magic]
    exact magicOffence_roll kind attributes defender attack
  | multiStyle attack =>
    rw [Evaluator.rolls_multiStyle]
    cases attack with
    | magicalMelee attackType style multiplier | rangedMelee attackType style _ multiplier =>
      exact meleeOffence_roll kind attributes defender { attackType, style, multiplier }
    | rangedMagic style _ multiplier =>
      exact magicOffence_roll kind attributes defender (.staff { style, multiplier })
    | magicalRanged attackType style multiplier =>
      exact rangedOffence_roll kind attributes defender { attackType, style, multiplier }

private theorem defenceBonus_rangedColumn (defender : CombatantKind) (attributes : Attributes)
    (blockType : Option RangedType) :
    attributes.defenceBonus (rangedColumn defender blockType) =
      bonusIn attributes.defenceBonus (Channel.defenceColumn defender .ranged blockType) := by
  cases defender <;> cases blockType <;> rfl

theorem defence_rolls (evaluator : Evaluator) (engagement : Engagement) :
    (evaluator.rolls engagement).defence = engagement.defenceRoll evaluator.reference := by
  obtain ⟨⟨kind, attributes⟩, ⟨defending, defender⟩, attack⟩ := engagement
  unfold Engagement.defenceRoll Engagement.defenceBonus
  cases attack with
  | melee blow =>
    rw [Evaluator.rolls_melee]
    cases kind with
    | player =>
      simp only [Formula.melee, MeleeOffence.settle, WeaponOffence.overriding, meleeDefenceRoll,
        ← Stance.typeOn_melee]
      rfl
    | npc =>
      simp only [Formula.melee, MeleeOffence.settle, WeaponOffence.bare, meleeDefenceRoll,
        ← Stance.typeOn_melee]
      rfl
  | ranged shot =>
    rw [Evaluator.rolls_ranged]
    simp only [Formula.ranged, rangedDefenceRoll, defenceBonus_rangedColumn]
    cases kind with
    | player =>
      simp only [RangedOffence.settle, WeaponOffence.overriding, ← Stance.typeOn_ranged]
      rfl
    | npc =>
      simp only [RangedOffence.settle, WeaponOffence.bare, ← Stance.typeOn_ranged]
      rfl
  | magic attack =>
    rw [Evaluator.rolls_magic]
    cases kind <;> cases attack <;> rfl
  | multiStyle attack =>
    rw [Evaluator.rolls_multiStyle]
    cases attack with
    | magicalMelee attackType style multiplier | magicalRanged attackType style multiplier =>
      cases kind <;> rfl
    | rangedMelee _ _ blockType _ | rangedMagic _ blockType _ =>
      simp only [Formula.multiStyle, Formula.multiStyleDefence, rangedDefenceRoll,
        defenceBonus_rangedColumn]
      cases kind with
      | player => rfl
      | npc =>
        simp only [rangedBlock, ← Stance.typeOn_ranged]
        rfl

/-- Every engagement rolls its sources: the attack roll is the attacker's level times its bonus and
64, scaled; the defence roll is the defender's level times its bonus and 64. Neither product wraps
around. -/
theorem rolls_sources (evaluator : Evaluator) (engagement : Engagement) :
    (∃ base : Int64,
      base.toInt = engagement.offenceLevel.toInt * (engagement.offenceBonus.toInt + 64) ∧
      (evaluator.rolls engagement).attack = scaleRoll base engagement.multiplier) ∧
    (evaluator.rolls engagement).defence.toInt =
      engagement.defenceLevel evaluator.reference *
        ((engagement.defenceBonus evaluator.reference).toInt + 64) := by
  constructor
  · refine ⟨baseRoll engagement.offenceLevel engagement.offenceBonus, ?_, ?_⟩
    · exact toInt_baseRoll _ _
    · exact attack_rolls evaluator engagement
  · rw [defence_rolls, Engagement.defenceRoll, toInt_baseRoll, toInt_reducedLevel]
    rfl

end CombatAccuracy
