import CombatAccuracy.Proofs.Sources
/-!
# What an evaluation reads

An attack names one channel of the attacker's offence and one of the defender's defence, and the
rolls read nothing off these: of the attacker its stance, its levels and columns on the one, and its
spellbook for a spell; of the defender its level on the other and that channel's columns. Pairs of
combatants that agree there are evaluated alike, whatever else they differ in (`evaluation_frame`).
-/
namespace CombatAccuracy

namespace Channel

/-- The columns that an offence on a channel draws its bonus from. -/
def offenceColumns : Channel → List BonusColumn
  | .melee => [.stab, .slash, .crush]
  | .ranged => [.ranged]
  | .magic => [.magic]

def defenceColumns (defender : CombatantKind) : Channel → List BonusColumn
  | .melee => [.stab, .slash, .crush]
  | .ranged =>
    match defender with
    | .player => [.ranged]
    | .npc => [.ranged, .rangedLight, .rangedStandard, .rangedHeavy]
  | .magic => [.magic]

theorem mem_offenceColumns {channel : Channel} {attackType : Option channel.AttackType}
    {column : BonusColumn} (h : column ∈ channel.offenceColumn attackType) :
    column ∈ channel.offenceColumns := by
  cases channel with
  | melee =>
    obtain ⟨t, -, rfl⟩ := Option.map_eq_some_iff.mp h
    cases t <;> simp [MeleeType.column, offenceColumns]
  | ranged =>
    obtain rfl := Option.some.inj h
    simp [offenceColumns]
  | magic =>
    obtain rfl := Option.some.inj h
    simp [offenceColumns]

theorem mem_defenceColumns {defender : CombatantKind} {channel : Channel}
    {blockType : Option channel.AttackType} {column : BonusColumn}
    (h : column ∈ channel.defenceColumn defender blockType) :
    column ∈ channel.defenceColumns defender := by
  cases channel with
  | melee =>
    obtain ⟨t, -, rfl⟩ := Option.map_eq_some_iff.mp h
    cases t <;> simp [MeleeType.column, defenceColumns]
  | ranged =>
    cases blockType with
    | none =>
      obtain rfl := Option.some.inj h
      cases defender <;> simp [defenceColumns]
    | some t =>
      cases defender with
      | player =>
        obtain rfl := Option.some.inj h
        simp [defenceColumns]
      | npc =>
        obtain rfl := Option.some.inj h
        cases t <;> simp [RangedType.column, defenceColumns]
  | magic =>
    obtain rfl := Option.some.inj h
    simp [defenceColumns]

end Channel

theorem bonusIn_congr {bonuses other : BonusColumn → Int32} {column? : Option BonusColumn}
    (h : ∀ column ∈ column?, bonuses column = other column) :
    bonusIn bonuses column? = bonusIn other column? := by
  cases column? with
  | none => rfl
  | some column => exact h column rfl

/-- Attackers that an attack cannot tell apart. -/
structure Attack.AlikeAttackers (attack : Attack) (first second : Attributes) : Prop where
  stance : first.stance = second.stance
  level : first.offenceLevel attack.offenceChannel = second.offenceLevel attack.offenceChannel
  bonus : ∀ column ∈ attack.offenceChannel.offenceColumns,
    first.offenceBonus column = second.offenceBonus column
  spellbook : ∀ cast, attack = .magic (.spell cast) → first.spellbook = second.spellbook

namespace Engagement
variable (engagement : Engagement) (reference : MagicReference)

/-- The same attack between combatants of the same kinds with other attributes. -/
def between (attacker defender : Attributes) : Engagement where
  attacker := ⟨engagement.attacker.kind, attacker⟩
  defender := ⟨engagement.defender.kind, defender⟩
  attack := engagement.attack

/-- The columns that the defender may block with: a player's spell leaves it the one that the
reference data selects, any other attack those of its defence channel. -/
def defenceColumns : List BonusColumn :=
  match engagement.playerCast? with
  | some cast =>
    [reference.spellColumn cast.spell
      (SpellCast.bookFor cast.spellbook engagement.attacker.attributes.spellbook)]
  | none => engagement.attack.defenceChannel.defenceColumns engagement.defender.kind

structure AlikeDefenders (first second : Attributes) : Prop where
  level : first.defenceLevel engagement.attack.defenceChannel =
    second.defenceLevel engagement.attack.defenceChannel
  bonus : ∀ column ∈ engagement.defenceColumns reference,
    first.defenceBonus column = second.defenceBonus column

variable {engagement reference}

theorem attack_of_playerCast? {cast : SpellCast} (h : engagement.playerCast? = some cast) :
    engagement.attack = .magic (.spell cast) := by
  unfold playerCast? at h
  split at h
  · next hattack =>
    rw [hattack, Option.some.inj h]
  · nomatch h

theorem mem_defenceColumns {column : BonusColumn}
    (h : column ∈ engagement.defenceColumn reference) :
    column ∈ engagement.defenceColumns reference := by
  unfold defenceColumn at h
  unfold defenceColumns
  cases hcast : engagement.playerCast? with
  | some cast =>
    rw [hcast] at h
    obtain rfl := Option.some.inj h
    simp [SpellCast.bookFor]
  | none =>
    rw [hcast] at h
    exact Channel.mem_defenceColumns h

section Alike
variable {attacker defender : Attributes}

theorem attackRoll_between
    (h : engagement.attack.AlikeAttackers engagement.attacker.attributes attacker) :
    engagement.attackRoll = (engagement.between attacker defender).attackRoll := by
  have hbonus : engagement.offenceBonus = (engagement.between attacker defender).offenceBonus := by
    unfold offenceBonus between
    rw [← h.stance]
    exact bonusIn_congr fun column hcolumn => h.bonus column (Channel.mem_offenceColumns hcolumn)
  have hlevel : engagement.offenceLevel = (engagement.between attacker defender).offenceLevel := by
    unfold offenceLevel between
    rw [← h.stance, h.level]
  unfold attackRoll
  rw [hbonus, hlevel]
  rfl

theorem defenceColumn_between
    (h : engagement.attack.AlikeAttackers engagement.attacker.attributes attacker) :
    (engagement.between attacker defender).defenceColumn reference =
      engagement.defenceColumn reference := by
  have hcast : (engagement.between attacker defender).playerCast? = engagement.playerCast? := rfl
  unfold defenceColumn
  rw [hcast]
  cases hplayer : engagement.playerCast? with
  | some cast =>
    simp only [between, h.spellbook cast (attack_of_playerCast? hplayer)]
  | none =>
    simp only [between, h.stance]

theorem defenceRoll_between
    (hattacker : engagement.attack.AlikeAttackers engagement.attacker.attributes attacker)
    (hdefender : engagement.AlikeDefenders reference engagement.defender.attributes defender) :
    engagement.defenceRoll reference =
      (engagement.between attacker defender).defenceRoll reference := by
  have hbonus : engagement.defenceBonus reference =
      (engagement.between attacker defender).defenceBonus reference := by
    unfold defenceBonus
    rw [defenceColumn_between hattacker]
    exact bonusIn_congr fun column hcolumn => hdefender.bonus column (mem_defenceColumns hcolumn)
  unfold defenceRoll
  rw [hbonus, hdefender.level]
  rfl

theorem evaluation_between (evaluator : Evaluator)
    (hattacker : engagement.attack.AlikeAttackers engagement.attacker.attributes attacker)
    (hdefender : engagement.AlikeDefenders evaluator.reference engagement.defender.attributes
      defender) :
    evaluator.rolls engagement = evaluator.rolls (engagement.between attacker defender) ∧
      evaluator.hitChance engagement =
        evaluator.hitChance (engagement.between attacker defender) := by
  have hrolls : evaluator.rolls engagement =
      evaluator.rolls (engagement.between attacker defender) := by
    apply Rolls.ext
    · rw [attack_rolls, attack_rolls]
      exact attackRoll_between hattacker
    · rw [defence_rolls, defence_rolls]
      exact defenceRoll_between hattacker hdefender
  exact ⟨hrolls, Evaluator.hitChance_congr rfl hrolls⟩

end Alike
end Engagement

def Attributes.withDefenceOf (attributes other : Attributes) : Attributes :=
  { attributes with
    defenceLevel := other.defenceLevel
    defenceBonus := other.defenceBonus }

/-- Any attributes with the one level and the columns that the defender of an engagement uses. -/
def Engagement.defendingAs (engagement : Engagement) (reference : MagicReference)
    (other : Attributes) : Attributes :=
  let defender := engagement.defender.attributes
  { other with
    defenceLevel := fun channel =>
      if channel = engagement.attack.defenceChannel then defender.defenceLevel channel
      else other.defenceLevel channel
    defenceBonus := fun column =>
      if column ∈ engagement.defenceColumns reference then defender.defenceBonus column
      else other.defenceBonus column }

/-- Combatants that agree on what an attack names are evaluated alike. So the attacker's defence can
be anyone's, and of the defender nothing counts but one level and the columns that go with it. -/
theorem evaluation_frame (evaluator : Evaluator) (engagement : Engagement) :
    (∀ attacker defender : Attributes,
      engagement.attack.AlikeAttackers engagement.attacker.attributes attacker →
      engagement.AlikeDefenders evaluator.reference engagement.defender.attributes defender →
      evaluator.rolls engagement = evaluator.rolls (engagement.between attacker defender) ∧
        evaluator.hitChance engagement =
          evaluator.hitChance (engagement.between attacker defender)) ∧
    ∀ spare idle : Attributes,
      let attacker := engagement.attacker.attributes.withDefenceOf spare
      let defender := engagement.defendingAs evaluator.reference idle
      evaluator.rolls engagement = evaluator.rolls (engagement.between attacker defender) ∧
        evaluator.hitChance engagement =
          evaluator.hitChance (engagement.between attacker defender) := by
  refine ⟨fun attacker defender => Engagement.evaluation_between evaluator, ?_⟩
  intro spare idle attacker defender
  have hattacker :
      engagement.attack.AlikeAttackers engagement.attacker.attributes attacker := by
    have hlevel : ∀ channel,
        attacker.offenceLevel channel = engagement.attacker.attributes.offenceLevel channel := by
      intro channel
      cases channel <;> rfl
    exact ⟨rfl, (hlevel _).symm, fun _ _ => rfl, fun _ _ => rfl⟩
  have hdefender : engagement.AlikeDefenders evaluator.reference engagement.defender.attributes
      defender := by
    constructor
    · exact (if_pos rfl).symm
    · intro column hcolumn
      exact (if_pos hcolumn).symm
  exact Engagement.evaluation_between evaluator hattacker hdefender

theorem evaluation_frame_of_spell :
    let caster : Attributes :=
      { meleeLevel := fun _ => 1
        rangedLevel := fun _ => 1
        magicLevel := fun style => if style = some .accurate then 99 else 90
        defenceLevel := fun _ => 40
        offenceBonus := fun column => if column = .magic then 120 else 0
        stance := .magic .accurate
        spellbook := some .ancients }
    let armed : Attributes :=
      { caster with
        meleeLevel := fun _ => 99
        defenceLevel := fun _ => 80
        offenceBonus := fun column => if column = .magic then 120 else 75 }
    let target : Attributes :=
      { caster with defenceBonus := fun column => if column = .crush then 55 else 0 }
    let warded : Attributes :=
      { target with
        defenceLevel := fun channel => if channel = .magic then 40 else 99
        defenceBonus := fun column => if column = .crush then 55 else 300
        stance := .ranged .heavy .rapid
        spellbook := none }
    let evaluator : Evaluator := ⟨12, fun _ book => if book = .ancients then .crush else .magic⟩
    let cast := Attack.magic (.spell { spell := ⟨7⟩, sunfireRune := true })
    evaluator.rolls ⟨⟨.player, caster⟩, ⟨.npc, target⟩, cast⟩ =
        evaluator.rolls ⟨⟨.player, armed⟩, ⟨.npc, warded⟩, cast⟩ ∧
      evaluator.hitChance ⟨⟨.player, caster⟩, ⟨.npc, target⟩, cast⟩ =
        evaluator.hitChance ⟨⟨.player, armed⟩, ⟨.npc, warded⟩, cast⟩ := by
  intro caster armed target warded evaluator cast
  let engagement : Engagement := ⟨⟨.player, caster⟩, ⟨.npc, target⟩, cast⟩
  have hattacker : cast.AlikeAttackers caster armed := by
    refine ⟨rfl, rfl, ?_, fun _ _ => rfl⟩
    intro column hcolumn
    obtain rfl := List.mem_singleton.mp hcolumn
    rfl
  have hdefender : engagement.AlikeDefenders evaluator.reference target warded := by
    refine ⟨rfl, ?_⟩
    intro column hcolumn
    obtain rfl := List.mem_singleton.mp hcolumn
    rfl
  exact (evaluation_frame evaluator engagement).1 armed warded hattacker hdefender

end CombatAccuracy
