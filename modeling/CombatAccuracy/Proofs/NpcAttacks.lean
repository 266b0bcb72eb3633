import CombatAccuracy.Proofs.Sources
/-!
# What an NPC's attack can say

Of what an attack asks for, an NPC's rolls hear its class, the pairing of a multi-style attack and
a melee attack type. They are the rolls of the attack with everything else erased, whatever the
reference data (`rolls_heard`), so attacks that agree on what is heard are evaluated alike
(`npc_evaluated_alike`).
-/
namespace CombatAccuracy

namespace MultiStyleAttack

def meleeType? : MultiStyleAttack → Option MeleeType
  | .magicalMelee attackType _ _ => attackType
  | .rangedMelee attackType _ _ _ => attackType
  | .rangedMagic _ _ _ => none
  | .magicalRanged _ _ _ => none

/-- The attack of a pairing that names a melee attack type at most. -/
def naming (attackType : Option MeleeType) : MultiStyle → MultiStyleAttack
  | .magicalMelee => .magicalMelee attackType none plainMultiplier
  | .rangedMelee => .rangedMelee attackType none none plainMultiplier
  | .rangedMagic => .rangedMagic none none plainMultiplier
  | .magicalRanged => .magicalRanged none none plainMultiplier

end MultiStyleAttack

namespace Attack

def pairing? : Attack → Option MultiStyle
  | .multiStyle attack => some attack.combo
  | _ => none

def meleeType? : Attack → Option MeleeType
  | .melee blow => blow.attackType
  | .multiStyle attack => attack.meleeType?
  | _ => none

/-- The attack with everything erased that an NPC's rolls do not hear. -/
def heard : Attack → Attack
  | .melee blow => .melee { attackType := blow.attackType }
  | .ranged _ => .ranged {}
  | .magic _ => .magic .innate
  | .multiStyle attack => .multiStyle (.naming attack.meleeType? attack.combo)

theorem heard_eq_heard {attack other : Attack} (hclass : attack.attackClass = other.attackClass)
    (hpairing : attack.pairing? = other.pairing?) (htype : attack.meleeType? = other.meleeType?) :
    attack.heard = other.heard := by
  cases attack with
  | melee blow =>
    cases other with
    | melee blow' =>
      have hattackType : blow.attackType = blow'.attackType := htype
      rw [heard, heard, hattackType]
    | ranged _ | magic _ | multiStyle _ => nomatch hclass
  | ranged shot =>
    cases other with
    | ranged shot' => rfl
    | melee _ | magic _ | multiStyle _ => nomatch hclass
  | magic attack =>
    cases other with
    | magic attack' => rfl
    | melee _ | ranged _ | multiStyle _ => nomatch hclass
  | multiStyle attack =>
    cases other with
    | multiStyle attack' =>
      have hcombo : attack.combo = attack'.combo := Option.some.inj hpairing
      have hmelee : attack.meleeType? = attack'.meleeType? := htype
      rw [heard, heard, hcombo, hmelee]
    | melee _ | ranged _ | magic _ => nomatch hclass

end Attack

/-- Attributes that an NPC attacker's rolls cannot tell apart: the same stance, the same offence
bonuses, and the same offence levels without a style. -/
structure Attributes.AlikeForNpc (first second : Attributes) : Prop where
  stance : first.stance = second.stance
  offenceBonus : first.offenceBonus = second.offenceBonus
  meleeLevel : first.meleeLevel none = second.meleeLevel none
  rangedLevel : first.rangedLevel none = second.rangedLevel none
  magicLevel : first.magicLevel none = second.magicLevel none

namespace Attributes.AlikeForNpc
variable {attributes alike : Attributes}

protected theorem refl (attributes : Attributes) : attributes.AlikeForNpc attributes :=
  ⟨rfl, rfl, rfl, rfl, rfl⟩

theorem offenceLevel_eq (h : attributes.AlikeForNpc alike) (channel : Channel) :
    attributes.offenceLevel channel none = alike.offenceLevel channel none := by
  cases channel with
  | melee => exact h.meleeLevel
  | ranged => exact h.rangedLevel
  | magic => exact h.magicLevel

end Attributes.AlikeForNpc

section Heard
variable {attributes alike : Attributes} (h : attributes.AlikeForNpc alike)
include h

theorem attackRoll_heard (defender : Combatant) (attack : Attack) :
    Engagement.attackRoll ⟨⟨.npc, attributes⟩, defender, attack⟩ =
      Engagement.attackRoll ⟨⟨.npc, alike⟩, defender, attack.heard⟩ := by
  have hlevel := h.offenceLevel_eq attack.offenceChannel
  unfold Engagement.attackRoll Engagement.offenceLevel Engagement.offenceBonus
    Engagement.multiplier
  simp only [Attack.styleFor, Attack.multiplierFor, hlevel, h.stance, h.offenceBonus]
  cases attack with
  | melee _ | ranged _ | magic _ => rfl
  | multiStyle attack => cases attack <;> rfl

theorem defenceRoll_heard (reference other : MagicReference) (defender : Combatant)
    (attack : Attack) :
    Engagement.defenceRoll ⟨⟨.npc, attributes⟩, defender, attack⟩ reference =
      Engagement.defenceRoll ⟨⟨.npc, alike⟩, defender, attack.heard⟩ other := by
  unfold Engagement.defenceRoll Engagement.defenceBonus Engagement.defenceColumn
    Engagement.reduction Engagement.playerCast?
  simp only [h.stance]
  cases attack with
  | melee _ | ranged _ | magic _ => rfl
  | multiStyle attack => cases attack <;> rfl

/-- An NPC's rolls are those of the attack as it is heard, from any attributes it cannot tell apart
and with any reference data. -/
theorem rolls_heard (evaluator other : Evaluator) (defender : Combatant) (attack : Attack) :
    evaluator.rolls ⟨⟨.npc, attributes⟩, defender, attack⟩ =
      other.rolls ⟨⟨.npc, alike⟩, defender, attack.heard⟩ := by
  apply Rolls.ext
  · rw [attack_rolls, attack_rolls]
    exact attackRoll_heard h defender attack
  · rw [defence_rolls, defence_rolls]
    exact defenceRoll_heard h evaluator.reference other.reference defender attack

end Heard

/-- Two attacks of one class, one pairing and one melee attack type are evaluated alike for an NPC,
whatever else they ask for, with any reference data, and from any attributes that it cannot tell
apart. -/
theorem npc_evaluated_alike (evaluator other : Evaluator) {attributes alike : Attributes}
    (halike : attributes.AlikeForNpc alike) (defender : Combatant) {attack demand : Attack}
    (hclass : attack.attackClass = demand.attackClass)
    (hpairing : attack.pairing? = demand.pairing?)
    (htype : attack.meleeType? = demand.meleeType?) :
    evaluator.rolls ⟨⟨.npc, attributes⟩, defender, attack⟩ =
        other.rolls ⟨⟨.npc, alike⟩, defender, demand⟩ ∧
      evaluator.hitChance ⟨⟨.npc, attributes⟩, defender, attack⟩ =
        other.hitChance ⟨⟨.npc, alike⟩, defender, demand⟩ := by
  have hrolls : evaluator.rolls ⟨⟨.npc, attributes⟩, defender, attack⟩ =
      other.rolls ⟨⟨.npc, alike⟩, defender, demand⟩ := by
    calc evaluator.rolls ⟨⟨.npc, attributes⟩, defender, attack⟩
        = other.rolls ⟨⟨.npc, alike⟩, defender, attack.heard⟩ :=
          rolls_heard halike evaluator other defender attack
      _ = other.rolls ⟨⟨.npc, alike⟩, defender, demand.heard⟩ := by
          rw [Attack.heard_eq_heard hclass hpairing htype]
      _ = other.rolls ⟨⟨.npc, alike⟩, defender, demand⟩ :=
          (rolls_heard (.refl alike) other other defender demand).symm
  refine ⟨hrolls, Evaluator.hitChance_congr ?_ hrolls⟩
  simp only [Engagement.key, Engagement.matchup, hclass]

theorem npc_evaluated_alike_despite_special :
    let plain : Attributes :=
      { meleeLevel := fun _ => 80
        rangedLevel := fun _ => 80
        magicLevel := fun _ => 80
        defenceLevel := fun _ => 80
        stance := .ranged .heavy .rapid }
    let styled : Attributes :=
      { plain with
        meleeLevel := fun style => if style = none then 80 else 99
        spellbook := some .lunar }
    let defender : Combatant := ⟨.npc, plain⟩
    let attack := Attack.multiStyle (.rangedMelee (some .stab) none none plainMultiplier)
    let special := Attack.multiStyle (.rangedMelee (some .stab) (some .aggressive) (some .light)
      (0 / 0))
    Evaluator.rolls ⟨0, fun _ _ => .magic⟩ ⟨⟨.npc, plain⟩, defender, attack⟩ =
        Evaluator.rolls ⟨12, fun _ _ => .crush⟩ ⟨⟨.npc, styled⟩, defender, special⟩ ∧
      Evaluator.hitChance ⟨0, fun _ _ => .magic⟩ ⟨⟨.npc, plain⟩, defender, attack⟩ =
        Evaluator.hitChance ⟨12, fun _ _ => .crush⟩ ⟨⟨.npc, styled⟩, defender, special⟩ := by
  intro plain styled defender attack special
  have halike : plain.AlikeForNpc styled := ⟨rfl, rfl, rfl, rfl, rfl⟩
  exact npc_evaluated_alike _ _ halike defender rfl rfl rfl

end CombatAccuracy
