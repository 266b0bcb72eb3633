import CombatAccuracy.Proofs.Frame
import CombatAccuracy.Snapshot
/-!
# What the combatants' tags decide

The same attributes may be tagged as a player's or an NPC's. A defender's tag shows only in the
column that ammunition is blocked with, so only if the attack is blocked as some ammunition. An
attacker's tag shows in what it makes of the attack: one that leaves all but a melee attack type to
the stance rolls alike for both, unless an NPC meets it at range with the ammunition of a stance,
which a player's attack would have to name (`rolls_under_tags`).
-/
namespace CombatAccuracy

namespace Channel

/-- The ammunition that a defence on a channel blocks. -/
def ammunition? : (channel : Channel) → Option channel.AttackType → Option RangedType
  | .melee, _ => none
  | .ranged, blockType => blockType
  | .magic, _ => none

theorem eq_ranged_of_ammunition {channel : Channel} {blockType : Option channel.AttackType}
    {ammunition : RangedType} (h : channel.ammunition? blockType = some ammunition) :
    channel = .ranged := by
  cases channel with
  | ranged => rfl
  | melee | magic => nomatch h

theorem defenceColumn_player_eq_npc {channel : Channel} {blockType : Option channel.AttackType}
    (h : channel.ammunition? blockType = none) :
    channel.defenceColumn .player blockType = channel.defenceColumn .npc blockType := by
  cases channel with
  | melee | magic => rfl
  | ranged =>
    obtain rfl : blockType = none := h
    rfl

theorem defenceColumn_of_ranged {channel : Channel} (h : channel = .ranged)
    (defender : CombatantKind) (blockType : Option channel.AttackType) :
    channel.defenceColumn defender blockType =
      some (rangedColumn defender (channel.ammunition? blockType)) := by
  subst h
  cases defender <;> cases blockType <;> rfl

end Channel

namespace Attack

/-- The ammunition that an attack is blocked as, when it is met at range as some. -/
def ammunition? (attacker : Combatant) (attack : Attack) : Option RangedType :=
  attack.defenceChannel.ammunition? (attack.blockFor attacker.kind attacker.attributes.stance)

/-- An attack that is met at range without being shot. -/
def CrossesToRange (attack : Attack) : Prop :=
  attack.defenceChannel = .ranged ∧ attack.offenceChannel ≠ .ranged

/-- An attack that leaves everything to the stance but, at most, a melee attack type: it names no
style and no type to be blocked as, its multiplier is 1 if it has any, and it is no spell. -/
structure LeftToStance (attack : Attack) : Prop where
  attackType : attack.offenceChannel ≠ .melee → attack.namedType = none
  style : attack.namedStyle = none
  blockType : attack.namedBlock = none
  multiplier : ∀ multiplier ∈ attack.namedMultiplier, multiplier = 1
  noSpell : ∀ cast, attack ≠ .magic (.spell cast)

end Attack

/-- Attributes whose offence levels are the same with every style. -/
def Attributes.StyleBlind (attributes : Attributes) : Prop :=
  ∀ channel style, attributes.offenceLevel channel style = attributes.offenceLevel channel none

theorem Snapshot.styleBlind (snapshot : Snapshot) : snapshot.attributes.StyleBlind := by
  intro channel style
  cases channel <;> rfl

/-- A defender that only its bonus against all ammunition alike tells apart. -/
def Attributes.evenGuard : Attributes where
  meleeLevel _ := 1
  rangedLevel _ := 1
  magicLevel _ := 1
  defenceLevel _ := 1
  defenceBonus column := if column = .ranged then 1 else 0
  stance := .unarmed

theorem rangedDefenceRoll_evenGuard (ammunition : RangedType) :
    rangedDefenceRoll .evenGuard .ranged ≠ rangedDefenceRoll .evenGuard ammunition.column := by
  cases ammunition <;> decide

section DefenderTag
variable (evaluator : Evaluator) (attacker : Combatant) (attack : Attack)

theorem attack_defenderTag (defender : Attributes) :
    (evaluator.rolls ⟨attacker, ⟨.player, defender⟩, attack⟩).attack =
      (evaluator.rolls ⟨attacker, ⟨.npc, defender⟩, attack⟩).attack := by
  rw [attack_rolls, attack_rolls]
  rfl

theorem defence_defenderTag (defender : Attributes) (h : attack.ammunition? attacker = none) :
    (evaluator.rolls ⟨attacker, ⟨.player, defender⟩, attack⟩).defence =
      (evaluator.rolls ⟨attacker, ⟨.npc, defender⟩, attack⟩).defence := by
  have hcolumn : Engagement.defenceColumn ⟨attacker, ⟨.player, defender⟩, attack⟩
        evaluator.reference =
      Engagement.defenceColumn ⟨attacker, ⟨.npc, defender⟩, attack⟩ evaluator.reference := by
    unfold Engagement.defenceColumn Engagement.playerCast?
    simp only [Channel.defenceColumn_player_eq_npc h]
  rw [defence_rolls, defence_rolls]
  unfold Engagement.defenceRoll Engagement.defenceBonus
  rw [hcolumn]
  rfl

theorem defence_of_defenceChannel_ranged (defender : Combatant)
    (h : attack.defenceChannel = .ranged) :
    (evaluator.rolls ⟨attacker, defender, attack⟩).defence =
      rangedDefenceRoll defender.attributes
        (rangedColumn defender.kind (attack.ammunition? attacker)) := by
  have hcast : Engagement.playerCast? ⟨attacker, defender, attack⟩ = none := by
    cases hsome : Engagement.playerCast? ⟨attacker, defender, attack⟩ with
    | none => rfl
    | some cast =>
      obtain rfl : attack = .magic (.spell cast) := Engagement.attack_of_playerCast? hsome
      nomatch h
  have hcolumn := Channel.defenceColumn_of_ranged h defender.kind
    (attack.blockFor attacker.kind attacker.attributes.stance)
  rw [defence_rolls, Engagement.defenceRoll, Engagement.defenceBonus, Engagement.defenceColumn,
    Engagement.reduction, hcast]
  simp only [hcolumn, h]
  rfl

theorem defence_defenderTag_iff :
    (∀ defender : Attributes, (evaluator.rolls ⟨attacker, ⟨.player, defender⟩, attack⟩).defence =
      (evaluator.rolls ⟨attacker, ⟨.npc, defender⟩, attack⟩).defence) ↔
      attack.ammunition? attacker = none := by
  constructor
  · intro halike
    cases hsome : attack.ammunition? attacker with
    | none => rfl
    | some ammunition =>
      have hranged := Channel.eq_ranged_of_ammunition hsome
      have hguard := halike .evenGuard
      rw [defence_of_defenceChannel_ranged _ _ _ _ hranged,
        defence_of_defenceChannel_ranged _ _ _ _ hranged, hsome] at hguard
      exact absurd hguard (rangedDefenceRoll_evenGuard ammunition)
  · intro hnone defender
    exact defence_defenderTag evaluator attacker attack defender hnone

end DefenderTag

namespace Attack.LeftToStance
variable {attack : Attack} (h : attack.LeftToStance) (stance : Stance)
include h

theorem typeFor_eq : attack.typeFor .player stance = attack.typeFor .npc stance := by
  unfold Attack.typeFor
  by_cases hmelee : attack.offenceChannel = .melee
  · simp only [if_pos hmelee]
  · simp only [if_neg hmelee, h.attackType hmelee, Option.none_or]

theorem multiplierFor_eq : attack.multiplierFor .player = attack.multiplierFor .npc := by
  cases hnamed : attack.namedMultiplier with
  | none => simp only [Attack.multiplierFor, hnamed]
  | some multiplier =>
    obtain rfl := h.multiplier multiplier hnamed
    simp only [Attack.multiplierFor, hnamed]
    decide

/-- A player's attack is blocked as an NPC's, unless it crosses to range from a ranged stance. -/
theorem blockFor_eq (hstance : attack.CrossesToRange → stance.channel ≠ .ranged) :
    attack.blockFor .player stance = attack.blockFor .npc stance := by
  have hblock := h.blockType
  have htype := h.typeFor_eq stance
  cases attack with
  | melee blow =>
    simp only [Attack.blockFor, hblock, htype]
    exact Option.none_or
  | ranged shot =>
    simp only [Attack.blockFor, hblock, htype]
    exact Option.none_or
  | magic attack => exact (stance.typeOn_magic).symm
  | multiStyle attack =>
    simp only [Attack.blockFor, hblock]
    cases attack with
    | magicalMelee _ _ _ | magicalRanged _ _ _ => exact (stance.typeOn_magic).symm
    | rangedMelee _ _ _ _ | rangedMagic _ _ _ =>
      have hoff := hstance ⟨rfl, nofun⟩
      cases stance with
      | ranged _ _ => exact absurd rfl hoff
      | melee _ _ | magic _ => rfl

theorem ammunition?_of_crossesToRange (hcross : attack.CrossesToRange) (attributes : Attributes) :
    attack.ammunition? ⟨.player, attributes⟩ = none ∧
      attack.ammunition? ⟨.npc, attributes⟩ = attributes.stance.rangedType? := by
  have hblock := h.blockType
  cases attack with
  | melee _ | magic _ => nomatch hcross.1
  | ranged _ => exact absurd rfl hcross.2
  | multiStyle attack =>
    cases attack with
    | magicalMelee _ _ _ | magicalRanged _ _ _ => nomatch hcross.1
    | rangedMelee _ _ _ _ | rangedMagic _ _ _ => exact ⟨hblock, attributes.stance.typeOn_ranged⟩

end Attack.LeftToStance

section AttackerTag
variable (evaluator : Evaluator) {attributes : Attributes} {attack : Attack}

theorem attack_attackerTag (hblind : attributes.StyleBlind) (hleft : attack.LeftToStance)
    (defender : Combatant) :
    (evaluator.rolls ⟨⟨.player, attributes⟩, defender, attack⟩).attack =
      (evaluator.rolls ⟨⟨.npc, attributes⟩, defender, attack⟩).attack := by
  rw [attack_rolls, attack_rolls]
  unfold Engagement.attackRoll Engagement.offenceLevel Engagement.offenceBonus
    Engagement.multiplier
  simp only [hleft.typeFor_eq, hleft.multiplierFor_eq]
  rw [hblind _ (attack.styleFor .player attributes.stance),
    hblind _ (attack.styleFor .npc attributes.stance)]

theorem playerCast?_of_leftToStance (hleft : attack.LeftToStance) (attacker defender : Combatant) :
    Engagement.playerCast? ⟨attacker, defender, attack⟩ = none := by
  cases hsome : Engagement.playerCast? ⟨attacker, defender, attack⟩ with
  | none => rfl
  | some cast => exact absurd (Engagement.attack_of_playerCast? hsome) (hleft.noSpell cast)

/-- Only a defending NPC that meets an attack at range asks for the ammunition of a stance. -/
theorem defence_attackerTag (hleft : attack.LeftToStance) (defender : Combatant)
    (h : attack.CrossesToRange → attributes.stance.channel = .ranged → defender.kind = .player) :
    (evaluator.rolls ⟨⟨.player, attributes⟩, defender, attack⟩).defence =
      (evaluator.rolls ⟨⟨.npc, attributes⟩, defender, attack⟩).defence := by
  by_cases hcross : attack.CrossesToRange ∧ attributes.stance.channel = .ranged
  · have hplayer := h hcross.1 hcross.2
    rw [defence_of_defenceChannel_ranged _ _ _ _ hcross.1.1,
      defence_of_defenceChannel_ranged _ _ _ _ hcross.1.1, hplayer]
    rfl
  · have hblock := hleft.blockFor_eq attributes.stance fun hrange hstance =>
      hcross ⟨hrange, hstance⟩
    rw [defence_rolls, defence_rolls]
    unfold Engagement.defenceRoll Engagement.defenceBonus Engagement.defenceColumn
      Engagement.reduction
    simp only [playerCast?_of_leftToStance hleft, hblock]

theorem rolls_attackerTag_iff (hblind : attributes.StyleBlind) (hleft : attack.LeftToStance)
    (kind : CombatantKind) :
    (∀ defender : Attributes, evaluator.rolls ⟨⟨.player, attributes⟩, ⟨kind, defender⟩, attack⟩ =
      evaluator.rolls ⟨⟨.npc, attributes⟩, ⟨kind, defender⟩, attack⟩) ↔
      ¬(attack.CrossesToRange ∧ attributes.stance.channel = .ranged ∧ kind = .npc) := by
  constructor
  · rintro halike ⟨hcross, hstance, rfl⟩
    have hguard := congrArg Rolls.defence (halike .evenGuard)
    obtain ⟨hplayer, hnpc⟩ := hleft.ammunition?_of_crossesToRange hcross attributes
    obtain ⟨ammunition, htype⟩ : ∃ ammunition, attributes.stance.rangedType? = some ammunition := by
      cases hoff : attributes.stance with
      | ranged ammunition _ => exact ⟨ammunition, rfl⟩
      | melee _ _ | magic _ => simp [hoff, Stance.channel] at hstance
    rw [defence_of_defenceChannel_ranged _ _ _ _ hcross.1,
      defence_of_defenceChannel_ranged _ _ _ _ hcross.1, hplayer, hnpc, htype] at hguard
    exact absurd hguard (rangedDefenceRoll_evenGuard ammunition)
  · intro hcommon defender
    apply Rolls.ext
    · exact attack_attackerTag evaluator hblind hleft ⟨kind, defender⟩
    · refine defence_attackerTag evaluator hleft ⟨kind, defender⟩ ?_
      intro hcross hstance
      cases kind with
      | player => rfl
      | npc => exact absurd ⟨hcross, hstance, rfl⟩ hcommon

end AttackerTag

/-- A tag shows only where the sourcing rules say. A defender's never shows in the attack roll, and
it shows in the defence roll, of some defender, exactly if the attack is blocked as some ammunition.
With levels that ignore the style, as those of snapshots do, an attacker's tag does not show in the
rolls of an attack that is left to the stance, except exactly where an NPC meets at range what was
not shot from a ranged stance; and there it does not show in the attack roll. -/
theorem rolls_under_tags (evaluator : Evaluator) :
    (∀ (attacker : Combatant) (attack : Attack),
      let rolls (kind : CombatantKind) (defender : Attributes) : Rolls :=
        evaluator.rolls ⟨attacker, ⟨kind, defender⟩, attack⟩
      (∀ defender, (rolls .player defender).attack = (rolls .npc defender).attack) ∧
      ((∀ defender, (rolls .player defender).defence = (rolls .npc defender).defence) ↔
        attack.ammunition? attacker = none)) ∧
    (∀ (attributes : Attributes) (attack : Attack) (defending : CombatantKind),
      attributes.StyleBlind → attack.LeftToStance →
      let rolls (kind : CombatantKind) (defender : Attributes) : Rolls :=
        evaluator.rolls ⟨⟨kind, attributes⟩, ⟨defending, defender⟩, attack⟩
      (∀ defender, (rolls .player defender).attack = (rolls .npc defender).attack) ∧
      ((∀ defender, rolls .player defender = rolls .npc defender) ↔
        ¬(attack.CrossesToRange ∧ attributes.stance.channel = .ranged ∧ defending = .npc))) ∧
    ∀ snapshot : Snapshot, snapshot.attributes.StyleBlind := by
  refine ⟨?_, ?_, Snapshot.styleBlind⟩
  · intro attacker attack rolls
    constructor
    · exact attack_defenderTag evaluator attacker attack
    · exact defence_defenderTag_iff evaluator attacker attack
  · intro attributes attack defending hblind hleft rolls
    constructor
    · intro defender
      exact attack_attackerTag evaluator hblind hleft ⟨defending, defender⟩
    · exact rolls_attackerTag_iff evaluator hblind hleft defending

theorem rolls_under_tags_at_range :
    let evaluator : Evaluator := ⟨0, fun _ _ => .magic⟩
    let archer := Snapshot.ofStance (.ranged .heavy .rapid)
    let slash := Attack.multiStyle (.rangedMelee (some .slash) none none 1)
    let rolls (kind defending : CombatantKind) (defender : Attributes) : Rolls :=
      evaluator.rolls ⟨⟨kind, archer.attributes⟩, ⟨defending, defender⟩, slash⟩
    archer.attributes.StyleBlind ∧ slash.LeftToStance ∧
      rolls .player .player .evenGuard = rolls .npc .player .evenGuard ∧
      ¬∀ defender, rolls .player .npc defender = rolls .npc .npc defender := by
  intro evaluator archer slash rolls
  have hblind : archer.attributes.StyleBlind := (rolls_under_tags evaluator).2.2 archer
  have hleft : slash.LeftToStance :=
    ⟨fun hmelee => absurd rfl hmelee, rfl, rfl, fun _ h => (Option.some.inj h).symm, nofun⟩
  have hplayer := ((rolls_under_tags evaluator).2.1 archer.attributes slash .player hblind hleft).2
  have hnpc := ((rolls_under_tags evaluator).2.1 archer.attributes slash .npc hblind hleft).2
  refine ⟨hblind, hleft, hplayer.mpr (fun h => nomatch h.2.2) .evenGuard, ?_⟩
  intro halike
  exact hnpc.mp halike ⟨⟨rfl, nofun⟩, rfl, rfl⟩

end CombatAccuracy
