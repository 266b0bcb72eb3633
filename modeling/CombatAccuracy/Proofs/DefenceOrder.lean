import CombatAccuracy.Proofs.RollOrder
import CombatAccuracy.Proofs.Sources
/-!
# Better defences

Against a defence that is at least as good on every channel and in every column, no attack is more
likely to hit (`hitChance_le_of_outdefends`). The attack roll does not see the defender, and the
defence roll is a product of a level and an offset bonus; while neither is negative, both may only
raise it, and lowering the level by a reduction keeps its order.
-/
namespace CombatAccuracy

section Words
variable {level level' reduction bonus bonus' : Int32}

theorem reducedLevel_mono (h : level ≤ level') :
    reducedLevel level reduction ≤ reducedLevel level' reduction := by
  rw [Int32.le_iff_toInt_le] at h ⊢
  rw [toInt_reducedLevel, toInt_reducedLevel]
  split <;> omega

theorem reducedLevel_nonneg (h0 : 0 ≤ level) : 0 ≤ reducedLevel level reduction := by
  rw [Int32.le_iff_toInt_le, Int32.toInt_zero] at h0 ⊢
  rw [toInt_reducedLevel]
  split <;> omega

theorem reducedLevel_le (h0 : 0 ≤ level) : reducedLevel level reduction ≤ level := by
  rw [Int32.le_iff_toInt_le, Int32.toInt_zero] at h0
  rw [Int32.le_iff_toInt_le, toInt_reducedLevel]
  split
  · next hpositive =>
    rw [Int32.lt_iff_toInt_lt, Int32.toInt_zero] at hpositive
    omega
  · exact Int.le_refl _

theorem reducedLevel_of_nonpos (h : reduction ≤ 0) : reducedLevel level reduction = level :=
  if_neg (Int32.not_lt.mpr h)

theorem offsetBonus_nonneg (hlow : -64 ≤ bonus) : 0 ≤ bonus.toInt + 64 := by
  rw [Int32.le_iff_toInt_le, show (-64 : Int32).toInt = -64 from rfl] at hlow
  omega

theorem baseRoll_nonneg (h0 : 0 ≤ level) (hlow : -64 ≤ bonus) : 0 ≤ baseRoll level bonus := by
  rw [Int32.le_iff_toInt_le] at h0
  rw [Int64.le_iff_toInt_le, toInt_baseRoll]
  exact Int.mul_nonneg h0 (offsetBonus_nonneg hlow)

theorem baseRoll_mono (h0 : 0 ≤ level) (hlevel : level ≤ level') (hlow : -64 ≤ bonus)
    (hbonus : bonus ≤ bonus') : baseRoll level bonus ≤ baseRoll level' bonus' := by
  rw [Int32.le_iff_toInt_le] at h0 hlevel hbonus
  rw [Int64.le_iff_toInt_le, toInt_baseRoll, toInt_baseRoll]
  exact Int.mul_le_mul hlevel (by omega) (offsetBonus_nonneg hlow) (Int.le_trans h0 hlevel)

end Words

theorem Evaluator.hitChance_mono {evaluator other : Evaluator} {first second : Engagement}
    (hattack : (evaluator.rolls first).attack ≤ (other.rolls second).attack)
    (hdefence : (other.rolls second).defence ≤ (evaluator.rolls first).defence) :
    (evaluator.hitChance first).value.points ≤ (other.hitChance second).value.points := by
  rw [Int64.le_iff_toInt_le] at hattack hdefence
  have hheld := HitChance.heldPoints_mono hattack hdefence
  rw [← HitChance.points_ofRolls_eq, ← HitChance.points_ofRolls_eq] at hheld
  exact Int.ofNat_le.mp hheld

/-- A defence at least as good as another on every channel and in every column. The other's levels
are not negative, nor are its bonuses with the 64 points that are free. -/
structure Attributes.Outdefends (stronger weaker : Attributes) : Prop where
  level_nonneg : ∀ channel, 0 ≤ weaker.defenceLevel channel
  level_le : ∀ channel, weaker.defenceLevel channel ≤ stronger.defenceLevel channel
  bonus_ge : ∀ column, -64 ≤ weaker.defenceBonus column
  bonus_le : ∀ column, weaker.defenceBonus column ≤ stronger.defenceBonus column

section Outdefends
variable {weaker stronger : Attributes} (h : stronger.Outdefends weaker)
include h

theorem Attributes.Outdefends.bonusIn_ge (column? : Option BonusColumn) :
    -64 ≤ bonusIn weaker.defenceBonus column? := by
  cases column? with
  | none => exact (by decide : (-64 : Int32) ≤ 0)
  | some column => exact h.bonus_ge column

theorem Attributes.Outdefends.bonusIn_le (column? : Option BonusColumn) :
    bonusIn weaker.defenceBonus column? ≤ bonusIn stronger.defenceBonus column? := by
  cases column? with
  | none => exact Int32.le_refl 0
  | some column => exact h.bonus_le column

/-- Of the defender its kind alone decides which level and which column are used. -/
theorem Engagement.defenceRoll_le_of_outdefends (reference : MagicReference) (attacker : Combatant)
    (kind : CombatantKind) (attack : Attack) :
    Engagement.defenceRoll ⟨attacker, ⟨kind, weaker⟩, attack⟩ reference ≤
      Engagement.defenceRoll ⟨attacker, ⟨kind, stronger⟩, attack⟩ reference := by
  unfold Engagement.defenceRoll
  apply baseRoll_mono
  · exact reducedLevel_nonneg (h.level_nonneg _)
  · exact reducedLevel_mono (h.level_le _)
  · exact h.bonusIn_ge _
  · exact h.bonusIn_le _

end Outdefends

/-- A better defence never helps the attacker: whatever the attack, the attacker and the reference
data, and for both kinds of defender. -/
theorem hitChance_le_of_outdefends (evaluator : Evaluator) (attacker : Combatant)
    (kind : CombatantKind) (attack : Attack) {weaker stronger : Attributes}
    (h : stronger.Outdefends weaker) :
    (evaluator.hitChance ⟨attacker, ⟨kind, stronger⟩, attack⟩).value.points ≤
      (evaluator.hitChance ⟨attacker, ⟨kind, weaker⟩, attack⟩).value.points := by
  apply Evaluator.hitChance_mono
  · rw [attack_rolls, attack_rolls]
    exact Int64.le_refl _
  · rw [defence_rolls, defence_rolls]
    exact Engagement.defenceRoll_le_of_outdefends h evaluator.reference attacker kind attack

theorem hitChance_le_of_extreme_defence :
    let caster : Attributes :=
      { meleeLevel := fun _ => 1
        rangedLevel := fun _ => 1
        magicLevel := fun _ => 99
        defenceLevel := fun _ => 0
        defenceBonus := fun _ => -64
        stance := .magic .accurate }
    let warded : Attributes :=
      { caster with
        defenceLevel := fun _ => Int32.maxValue
        defenceBonus := fun column => if column = .crush then Int32.maxValue else -64 }
    let evaluator : Evaluator := ⟨Int32.maxValue, fun _ _ => .crush⟩
    let cast := Attack.magic (.spell { spell := ⟨7⟩, sunfireRune := true })
    (evaluator.hitChance ⟨⟨.player, caster⟩, ⟨.npc, warded⟩, cast⟩).value.points ≤
      (evaluator.hitChance ⟨⟨.player, caster⟩, ⟨.npc, caster⟩, cast⟩).value.points := by
  intro caster warded evaluator cast
  have houtdefends : warded.Outdefends caster := by
    refine ⟨fun _ => Int32.le_refl 0, fun _ => ?_, fun _ => Int32.le_refl (-64), ?_⟩
    · exact (by decide : (0 : Int32) ≤ Int32.maxValue)
    · intro column
      cases column <;> decide
  exact hitChance_le_of_outdefends evaluator ⟨.player, caster⟩ .npc cast houtdefends

end CombatAccuracy
