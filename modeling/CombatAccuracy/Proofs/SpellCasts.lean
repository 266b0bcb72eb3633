import CombatAccuracy.Proofs.DefenceOrder
/-!
# Spells and sunfire runes

What a player's cast names shows in the defence roll alone: the attack roll is that of innate magic,
whatever the spell, the book, the rune and the reference data. A sunfire rune takes a positive
reduction off the defender's level and leaves it alone otherwise. From a defence roll that is not
negative it can only take away, so it never costs the caster anything (`spell_rolls`).
-/
namespace CombatAccuracy

/-- The same cast with a sunfire rune or without one. -/
def SpellCast.withRune (cast : SpellCast) (rune : Bool) : SpellCast :=
  { cast with sunfireRune := rune }

/-- A player casts a spell at a defender. -/
def Engagement.ofCast (caster : Attributes) (defender : Combatant) (cast : SpellCast) :
    Engagement where
  attacker := ⟨.player, caster⟩
  defender := defender
  attack := .magic (.spell cast)

section Cast
variable (evaluator : Evaluator) (caster : Attributes) (defender : Combatant) (cast : SpellCast)

theorem attack_ofCast (other : Evaluator) :
    (evaluator.rolls (.ofCast caster defender cast)).attack =
      (other.rolls ⟨⟨.player, caster⟩, defender, .magic .innate⟩).attack := by
  rw [attack_rolls, attack_rolls]
  rfl

theorem defence_ofCast :
    let book := (cast.spellbook.or caster.spellbook).getD .standard
    (evaluator.rolls (.ofCast caster defender cast)).defence =
      baseRoll
        (reducedLevel (defender.attributes.defenceLevel .magic)
          (if cast.sunfireRune then evaluator.reference.sunfireReduction else 0))
        (defender.attributes.defenceBonus (evaluator.reference.spellColumn cast.spell book)) := by
  intro book
  rw [Engagement.ofCast, Evaluator.rolls_magic]
  rfl

end Cast

/-- The parameters of a player's spell touch only the defence roll, and a sunfire rune only helps:
while the defender's level and offset bonus are not negative, it lowers the defence roll to that of
the reduced level if the reduction is positive, changes nothing otherwise, and never lowers the
chance. -/
theorem spell_rolls (caster : Attributes) (defender : Combatant) :
    (∀ (evaluator other : Evaluator) (cast recast : SpellCast),
      (evaluator.rolls (.ofCast caster defender cast)).attack =
          (other.rolls (.ofCast caster defender recast)).attack ∧
        (evaluator.rolls (.ofCast caster defender cast)).attack =
          (other.rolls ⟨⟨.player, caster⟩, defender, .magic .innate⟩).attack) ∧
    ∀ (evaluator : Evaluator) (cast : SpellCast),
      let book := (cast.spellbook.or caster.spellbook).getD .standard
      let level := defender.attributes.defenceLevel .magic
      let bonus := defender.attributes.defenceBonus
        (evaluator.reference.spellColumn cast.spell book)
      let reduction := evaluator.reference.sunfireReduction
      let plain := Engagement.ofCast caster defender (cast.withRune false)
      let lit := Engagement.ofCast caster defender (cast.withRune true)
      0 ≤ level → -64 ≤ bonus →
        (evaluator.rolls lit).attack = (evaluator.rolls plain).attack ∧
        0 ≤ (evaluator.rolls lit).defence ∧
        (evaluator.rolls lit).defence ≤ (evaluator.rolls plain).defence ∧
        (0 < reduction → (evaluator.rolls lit).defence.toInt =
          max 0 (level.toInt - reduction.toInt) * (bonus.toInt + 64)) ∧
        (reduction ≤ 0 → (evaluator.rolls lit).defence = (evaluator.rolls plain).defence) ∧
        (evaluator.hitChance plain).value.points ≤ (evaluator.hitChance lit).value.points := by
  constructor
  · intro evaluator other cast recast
    have hinnate := attack_ofCast evaluator caster defender cast other
    exact ⟨hinnate.trans (attack_ofCast other caster defender recast other).symm, hinnate⟩
  · intro evaluator cast book level bonus reduction plain lit hlevel hbonus
    have hattack : (evaluator.rolls lit).attack = (evaluator.rolls plain).attack := by
      rw [attack_ofCast evaluator _ _ _ evaluator, attack_ofCast evaluator _ _ _ evaluator]
    have hlit : (evaluator.rolls lit).defence = baseRoll (reducedLevel level reduction) bonus :=
      defence_ofCast evaluator caster defender (cast.withRune true)
    have hplain : (evaluator.rolls plain).defence = baseRoll level bonus :=
      defence_ofCast evaluator caster defender (cast.withRune false)
    have hnonneg : 0 ≤ reducedLevel level reduction := reducedLevel_nonneg hlevel
    have hdefence : (evaluator.rolls lit).defence ≤ (evaluator.rolls plain).defence := by
      rw [hlit, hplain]
      exact baseRoll_mono hnonneg (reducedLevel_le hlevel) hbonus (Int32.le_refl bonus)
    refine ⟨hattack, ?_, hdefence, ?_, ?_, ?_⟩
    · rw [hlit]
      exact baseRoll_nonneg hnonneg hbonus
    · intro hpositive
      rw [hlit, toInt_baseRoll, toInt_reducedLevel, if_pos hpositive]
    · intro hnonpos
      rw [hlit, hplain, reducedLevel_of_nonpos hnonpos]
    · exact Evaluator.hitChance_mono (Int64.le_of_eq hattack.symm) hdefence

theorem spell_rolls_with_runes :
    let caster : Attributes :=
      { meleeLevel := fun _ => 1
        rangedLevel := fun _ => 1
        magicLevel := fun _ => 99
        defenceLevel := fun _ => 40
        defenceBonus := fun column => if column = .crush then -14 else 25
        stance := .magic .accurate
        spellbook := some .ancients }
    let column : SpellId → Spellbook → BonusColumn :=
      fun _ book => if book = .ancients then .crush else .magic
    let cast : SpellCast := { spell := ⟨7⟩ }
    let plain := Engagement.ofCast caster ⟨.npc, caster⟩ (cast.withRune false)
    let lit := Engagement.ofCast caster ⟨.npc, caster⟩ (cast.withRune true)
    ((Evaluator.rolls ⟨12, column⟩ lit).defence.toInt = max 0 (40 - 12) * (-14 + 64) ∧
      (Evaluator.hitChance ⟨12, column⟩ plain).value.points ≤
        (Evaluator.hitChance ⟨12, column⟩ lit).value.points) ∧
    (Evaluator.rolls ⟨50, column⟩ lit).defence.toInt = max 0 (40 - 50) * (-14 + 64) ∧
    (Evaluator.rolls ⟨-5, column⟩ lit).defence = (Evaluator.rolls ⟨-5, column⟩ plain).defence := by
  intro caster column cast plain lit
  have hsome := (spell_rolls caster ⟨.npc, caster⟩).2 ⟨12, column⟩ cast (by decide) (by decide)
  have hall := (spell_rolls caster ⟨.npc, caster⟩).2 ⟨50, column⟩ cast (by decide) (by decide)
  have hnone := (spell_rolls caster ⟨.npc, caster⟩).2 ⟨-5, column⟩ cast (by decide) (by decide)
  exact ⟨⟨hsome.2.2.2.1 (by decide), hsome.2.2.2.2.2⟩, hall.2.2.2.1 (by decide),
    hnone.2.2.2.2.1 (by decide)⟩

end CombatAccuracy
