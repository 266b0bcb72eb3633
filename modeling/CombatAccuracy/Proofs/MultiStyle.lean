import CombatAccuracy.Proofs.Sources
/-!
# Multi-style attacks as pairs of plain ones

A multi-style attack takes its attack roll from the plain attack on its offence channel with the
same parameters, and its defence roll from the plain attack on its defence channel. Only one case
has no plain counterpart: a player's attack that is met at range and names nothing to be blocked as
is blocked as nothing in particular, where a plain shot falls back on its own type
(`multiStyle_rolls`).
-/
namespace CombatAccuracy

/-- The plain attack with an attack's offence: the same channel, type, style and multiplier. -/
def Attack.offenceAlone : Attack → Attack
  | .melee blow => .melee { blow with blockType := none }
  | .ranged shot => .ranged { shot with blockType := none }
  | .magic (.staff attack) => .magic (.staff attack)
  | .magic _ => .magic .innate
  | .multiStyle (.magicalMelee attackType style multiplier) =>
    .melee { attackType, style, multiplier }
  | .multiStyle (.rangedMelee attackType style _ multiplier) =>
    .melee { attackType, style, multiplier }
  | .multiStyle (.rangedMagic style _ multiplier) => .magic (.staff { style, multiplier })
  | .multiStyle (.magicalRanged attackType style multiplier) =>
    .ranged { attackType, style, multiplier }

/-- The type that an attack met at range names to be blocked as. -/
def MultiStyleAttack.blockType? : MultiStyleAttack → Option RangedType
  | .rangedMelee _ _ blockType _ => blockType
  | .rangedMagic _ blockType _ => blockType
  | .magicalMelee _ _ _ => none
  | .magicalRanged _ _ _ => none

section Rolls
variable (evaluator : Evaluator) (attacker defender : Combatant)

theorem attack_offenceAlone (attack : Attack) :
    (evaluator.rolls ⟨attacker, defender, attack⟩).attack =
      (evaluator.rolls ⟨attacker, defender, attack.offenceAlone⟩).attack := by
  rw [attack_rolls, attack_rolls]
  cases attack with
  | melee blow => rfl
  | ranged shot => rfl
  | magic attack => cases attack <;> rfl
  | multiStyle attack => cases attack <;> rfl

theorem attack_eq_of_offenceAlone_eq {attack other : Attack}
    (h : attack.offenceAlone = other.offenceAlone) :
    (evaluator.rolls ⟨attacker, defender, attack⟩).attack =
      (evaluator.rolls ⟨attacker, defender, other⟩).attack := by
  rw [attack_offenceAlone, h, ← attack_offenceAlone]

theorem defence_of_magic {attack : MultiStyleAttack} (h : attack.combo.defence = .magic) :
    (evaluator.rolls ⟨attacker, defender, .multiStyle attack⟩).defence =
      (evaluator.rolls ⟨attacker, defender, .magic .innate⟩).defence := by
  obtain ⟨kind, attributes⟩ := attacker
  rw [defence_rolls, defence_rolls]
  cases attack with
  | magicalMelee _ _ _ | magicalRanged _ _ _ => cases kind <;> rfl
  | rangedMelee _ _ _ _ | rangedMagic _ _ _ => nomatch h

theorem defence_of_ranged {attack : MultiStyleAttack} (h : attack.combo.defence = .ranged) :
    (evaluator.rolls ⟨attacker, defender, .multiStyle attack⟩).defence =
      rangedDefenceRoll defender.attributes
        (rangedColumn defender.kind
          (rangedBlock attacker.kind attack.blockType? attacker.attributes.stance)) := by
  rw [Evaluator.rolls_multiStyle]
  cases attack with
  | rangedMelee _ _ _ _ | rangedMagic _ _ _ => rfl
  | magicalMelee _ _ _ | magicalRanged _ _ _ => nomatch h

theorem defence_eq_shot {attack : MultiStyleAttack} (h : attack.combo.defence = .ranged)
    {shot : RangedAttack}
    (hblock : rangedBlock attacker.kind attack.blockType? attacker.attributes.stance =
      (RangedOffence.settle attacker.kind shot attacker.attributes.stance).blockType) :
    (evaluator.rolls ⟨attacker, defender, .multiStyle attack⟩).defence =
      (evaluator.rolls ⟨attacker, defender, .ranged shot⟩).defence := by
  rw [defence_of_ranged evaluator attacker defender h, hblock, Evaluator.rolls_ranged]
  rfl

end Rolls

/-- A type that an attack names is blocked alike at range and as a plain shot: from a player it is
that type, from an NPC its stance's ammunition. -/
theorem rangedBlock_some (kind : CombatantKind) (blockType : RangedType) (stance : Stance)
    (shot : RangedAttack) :
    rangedBlock kind (some blockType) stance =
      (RangedOffence.settle kind { shot with blockType := some blockType } stance).blockType := by
  cases kind <;> rfl

section Kinds
variable (evaluator : Evaluator) (attributes : Attributes) (defender : Combatant)

/-- Without a block type a player's attack at range is met with the bonus that all ammunition
shares, even by an NPC. -/
theorem defence_untyped {attack : MultiStyleAttack} (h : attack.combo.defence = .ranged)
    (hblock : attack.blockType? = none) :
    (evaluator.rolls ⟨⟨.player, attributes⟩, defender, .multiStyle attack⟩).defence.toInt =
      (defender.attributes.defenceLevel .ranged).toInt *
        ((defender.attributes.defenceBonus .ranged).toInt + 64) := by
  have hcolumn : rangedColumn defender.kind none = .ranged := by
    cases defender.kind <;> rfl
  rw [defence_of_ranged evaluator _ defender h, hblock, rangedBlock, hcolumn]
  exact toInt_baseRoll _ _

/-- Multi-style attacks roll as the plain attacks that they pair. In turn: the attack rolls of
those with a melee, a ranged and a magic offence; the defence rolls of those met with magic defence;
and the defence rolls of those met at range, with a block type, from an NPC, and from a player who
names none. -/
theorem multiStyle_rolls :
    let rolls (kind : CombatantKind) (attack : Attack) : Rolls :=
      evaluator.rolls ⟨⟨kind, attributes⟩, defender, attack⟩
    (∀ kind attackType style met block multiplier,
      (rolls kind (.multiStyle (.magicalMelee attackType style multiplier))).attack =
          (rolls kind (.melee ⟨attackType, style, block, multiplier⟩)).attack ∧
        (rolls kind (.multiStyle (.rangedMelee attackType style met multiplier))).attack =
          (rolls kind (.melee ⟨attackType, style, block, multiplier⟩)).attack) ∧
    (∀ kind attackType style block multiplier,
      (rolls kind (.multiStyle (.magicalRanged attackType style multiplier))).attack =
        (rolls kind (.ranged ⟨attackType, style, block, multiplier⟩)).attack) ∧
    (∀ kind style met multiplier,
      (rolls kind (.multiStyle (.rangedMagic style met multiplier))).attack =
        (rolls kind (.magic (.staff ⟨style, multiplier⟩))).attack) ∧
    (∀ kind meleeType meleeStyle rangedType rangedStyle multiplier,
      (rolls kind (.multiStyle (.magicalMelee meleeType meleeStyle multiplier))).defence =
          (rolls kind (.magic .innate)).defence ∧
        (rolls kind (.multiStyle (.magicalRanged rangedType rangedStyle multiplier))).defence =
          (rolls kind (.magic .innate)).defence) ∧
    (∀ kind attackType meleeStyle magicStyle block multiplier (shot : RangedAttack),
      let plain := rolls kind (.ranged { shot with blockType := some block })
      (rolls kind
            (.multiStyle (.rangedMelee attackType meleeStyle (some block) multiplier))).defence =
          plain.defence ∧
        (rolls kind (.multiStyle (.rangedMagic magicStyle (some block) multiplier))).defence =
          plain.defence) ∧
    (∀ attackType meleeStyle magicStyle met multiplier (shot : RangedAttack),
      let plain := rolls .npc (.ranged shot)
      (rolls .npc (.multiStyle (.rangedMelee attackType meleeStyle met multiplier))).defence =
          plain.defence ∧
        (rolls .npc (.multiStyle (.rangedMagic magicStyle met multiplier))).defence =
          plain.defence) ∧
    (∀ attackType meleeStyle magicStyle multiplier,
      let untyped : Int := (defender.attributes.defenceLevel .ranged).toInt *
        ((defender.attributes.defenceBonus .ranged).toInt + 64)
      (rolls .player
            (.multiStyle (.rangedMelee attackType meleeStyle none multiplier))).defence.toInt =
          untyped ∧
        (rolls .player (.multiStyle (.rangedMagic magicStyle none multiplier))).defence.toInt =
          untyped) := by
  intro rolls
  refine ⟨?_, ?_, ?_, ?_, ?_, ?_, ?_⟩
  · intro kind attackType style met block multiplier
    constructor
    · exact attack_eq_of_offenceAlone_eq evaluator _ defender rfl
    · exact attack_eq_of_offenceAlone_eq evaluator _ defender rfl
  · intro kind attackType style block multiplier
    exact attack_eq_of_offenceAlone_eq evaluator _ defender rfl
  · intro kind style met multiplier
    exact attack_eq_of_offenceAlone_eq evaluator _ defender rfl
  · intro kind meleeType meleeStyle rangedType rangedStyle multiplier
    constructor
    · exact defence_of_magic evaluator _ defender rfl
    · exact defence_of_magic evaluator _ defender rfl
  · intro kind attackType meleeStyle magicStyle block multiplier shot plain
    have hblock := rangedBlock_some kind block attributes.stance shot
    constructor
    · exact defence_eq_shot evaluator ⟨kind, attributes⟩ defender rfl hblock
    · exact defence_eq_shot evaluator ⟨kind, attributes⟩ defender rfl hblock
  · intro attackType meleeStyle magicStyle met multiplier shot plain
    constructor
    · exact defence_eq_shot evaluator ⟨.npc, attributes⟩ defender rfl rfl
    · exact defence_eq_shot evaluator ⟨.npc, attributes⟩ defender rfl rfl
  · intro attackType meleeStyle magicStyle multiplier untyped
    constructor
    · exact defence_untyped evaluator attributes defender rfl rfl
    · exact defence_untyped evaluator attributes defender rfl rfl

end Kinds
end CombatAccuracy
