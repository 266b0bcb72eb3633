import CombatAccuracy.Proofs.Reduction
import CombatAccuracy.Proofs.Sources
/-!
# Evaluation on checked words

Rolls and chances are computed once more, step by step on words: a sum, a product or a quotient that
is no word has no result, nor has a quotient by zero or a chance that is no 32-bit number. No step
ever fails, and the results are those of the evaluator (`evaluation_defined`): a product of 32-bit
numbers, one of them offset, has 64 bits; a saturated word stands for its nearest integer; and what
is divided by is at least 2.
-/
namespace CombatAccuracy

namespace Checked

/-- The 64-bit word of an integer, if it has one. -/
def int64? (n : Int) : Option Int64 :=
  if h : Int64.minValue.toInt ≤ n ∧ n ≤ Int64.maxValue.toInt then some (.ofIntLE n h.1 h.2)
  else none

/-- The 32-bit word of a 64-bit one, if it has one without a sign. -/
def uint32? (n : Int64) : Option UInt32 :=
  if 0 ≤ n.toInt ∧ n.toInt < UInt32.size then some (.ofNat n.toInt.toNat) else none

def add? (m n : Int64) : Option Int64 := int64? (m.toInt + n.toInt)

def mul? (m n : Int64) : Option Int64 := int64? (m.toInt * n.toInt)

/-- The quotient with a remainder that is not negative. -/
def div? (m n : Int64) : Option Int64 := if n = 0 then none else int64? (m.toInt / n.toInt)

/-- The word nearest to a sum; the next two are the same for products and differences. -/
def addSat (m n : Int64) : Int64 := .ofIntClamp (m.toInt + n.toInt)

def mulSat (m n : Int64) : Int64 := .ofIntClamp (m.toInt * n.toInt)

def subSat (m n : Int64) : Int64 := .ofIntClamp (m.toInt - n.toInt)

theorem int64?_eq_some_iff {n : Int} {word : Int64} : int64? n = some word ↔ word.toInt = n := by
  unfold int64?
  split
  · next h => rw [Option.some_inj, ← Int64.toInt_inj, Int64.toInt_ofIntLE, eq_comm]
  · next h =>
    refine iff_of_false nofun ?_
    rintro rfl
    exact h ⟨word.minValue_le_toInt, word.toInt_le⟩

theorem toInt_ofIntClamp (n : Int) : (Int64.ofIntClamp n).toInt = HitChance.saturate n := by
  unfold Int64.ofIntClamp HitChance.saturate
  have hlow := Int64.toInt_minValue
  have hhigh := Int64.toInt_maxValue
  split
  · split
    · rw [Int64.toInt_ofIntLE]
      omega
    · omega
  · omega

theorem exists_int64? {n : Int} (hlow : Int64.minValue.toInt ≤ n)
    (hhigh : n ≤ Int64.maxValue.toInt) : ∃ word, int64? n = some word ∧ word.toInt = n :=
  ⟨_, dif_pos ⟨hlow, hhigh⟩, Int64.toInt_ofIntLE⟩

theorem exists_div? (m : Int64) {n : Int64} (hn : 0 < n.toInt) :
    ∃ quotient, div? m n = some quotient ∧ quotient.toInt = m.toInt / n.toInt := by
  have hlow : Int64.minValue.toInt ≤ m.toInt / n.toInt := by
    apply Int.le_ediv_of_mul_le hn
    have hm := m.minValue_le_toInt
    rw [Int64.toInt_minValue] at hm ⊢
    omega
  have hhigh : m.toInt / n.toInt ≤ Int64.maxValue.toInt := by
    apply Int.ediv_le_of_le_mul hn
    have hm := m.toInt_le
    rw [Int64.toInt_maxValue] at hm ⊢
    omega
  have hne : n ≠ 0 := by
    rintro rfl
    exact absurd hn (by decide)
  rw [div?, if_neg hne]
  exact exists_int64? hlow hhigh

end Checked
open Checked

/-- A level times its offset bonus, if neither the sum nor the product leaves 64 bits. -/
def baseRoll? (level bonus : Int32) : Option Int64 := do
  let offset ← add? bonus.toInt64 64
  mul? level.toInt64 offset

theorem add?_bonus (bonus : Int32) :
    ∃ offset, add? bonus.toInt64 64 = some offset ∧ offset.toInt = bonus.toInt + 64 := by
  have hlow := bonus.le_toInt
  have hhigh := bonus.toInt_lt
  rw [add?, Int32.toInt_toInt64]
  apply exists_int64?
  · rw [Int64.toInt_minValue]
    simp
    omega
  · rw [Int64.toInt_maxValue]
    simp
    omega

theorem baseRoll?_eq (level bonus : Int32) :
    baseRoll? level bonus = some (baseRoll level bonus) := by
  obtain ⟨offset, hoffset, hvalue⟩ := add?_bonus bonus
  have hproduct : mul? level.toInt64 offset = some (baseRoll level bonus) := by
    rw [mul?, int64?_eq_some_iff, toInt_baseRoll, hvalue, Int32.toInt_toInt64]
  rw [baseRoll?, hoffset]
  exact hproduct

/-- A level lowered by a positive reduction in 32 bits: the nearest word to the difference, or zero
if that is negative. -/
def loweredLevel (level reduction : Int32) : Int32 :=
  if 0 < reduction then max (.ofIntClamp (level.toInt - reduction.toInt)) 0 else level

theorem toInt_ofIntClamp32 (n : Int) :
    (Int32.ofIntClamp n).toInt = max Int32.minValue.toInt (min n Int32.maxValue.toInt) := by
  unfold Int32.ofIntClamp
  have hlow := Int32.toInt_minValue
  have hhigh := Int32.toInt_maxValue
  split
  · split
    · rw [Int32.toInt_ofIntLE]
      omega
    · omega
  · omega

theorem toInt_max_zero (n : Int32) : (max n 0).toInt = max n.toInt 0 := by
  have hmax : max n 0 = if n ≤ 0 then 0 else n := rfl
  rw [hmax]
  split
  · next h =>
    rw [Int32.le_iff_toInt_le, Int32.toInt_zero] at h
    exact (Int.max_eq_right h).symm
  · next h =>
    rw [Int32.le_iff_toInt_le, Int32.toInt_zero] at h
    exact (Int.max_eq_left (by omega)).symm

/-- A difference that leaves 32 bits is negative, so its nearest word is, too. -/
theorem toInt_loweredLevel {level reduction : Int32} (h : 0 < reduction) :
    (loweredLevel level reduction).toInt = max 0 (level.toInt - reduction.toInt) := by
  have hlevel := level.toInt_lt
  rw [loweredLevel, if_pos h, toInt_max_zero, toInt_ofIntClamp32, Int32.toInt_minValue,
    Int32.toInt_maxValue]
  rw [Int32.lt_iff_toInt_lt, Int32.toInt_zero] at h
  omega

theorem loweredLevel_eq (level reduction : Int32) :
    loweredLevel level reduction = reducedLevel level reduction := by
  by_cases h : 0 < reduction
  · rw [← Int32.toInt_inj, toInt_loweredLevel h, toInt_reducedLevel, if_pos h]
  · rw [loweredLevel, if_neg h, reducedLevel, if_neg h]

namespace HitChance

/-- The divisor of either reduction, on words. -/
def divisorWord (stronger : Int64) : Int64 := mulSat (addSat stronger 1) 2

/-- A word cut to the scale. -/
def clampWord (points : Int64) : Int64 :=
  if points < 0 then 0 else if 10000 < points then 10000 else points

/-- The chance of a word of points, if what is cut to the scale is a 32-bit number on it. -/
def ofWord? (points : Int64) : Option HitChance := do
  let points ← uint32? (clampWord points)
  if h : points.toNat ≤ 10000 then some ⟨points.toNat, h⟩ else none

/-- The reduction of two rolls, if there is a quotient and it gives a chance. -/
def ofRolls? (attack defence : Int64) : Option HitChance :=
  if attack > defence then
    if attack < 0 then some zero
    else do
      let share ← div? (mulSat (addSat defence 2) 10000) (divisorWord attack)
      ofWord? (subSat 10000 share)
  else
    if defence < 0 then some zero
    else do
      let share ← div? (mulSat attack 10000) (divisorWord defence)
      ofWord? share

theorem toInt_divisorWord (stronger : Int64) :
    (divisorWord stronger).toInt = divisor stronger.toInt := by
  simp only [divisorWord, mulSat, addSat, toInt_ofIntClamp]
  rfl

theorem two_le_divisorWord {stronger : Int64} (h0 : 0 ≤ stronger.toInt) :
    2 ≤ (divisorWord stronger).toInt := by
  rw [toInt_divisorWord, divisor_of_nonneg h0, Int64.toInt_maxValue]
  omega

theorem toInt_clampWord (points : Int64) :
    (clampWord points).toInt = max 0 (min points.toInt scale) := by
  have htop : (10000 : Int64).toInt = scale := rfl
  unfold clampWord
  simp only [Int64.lt_iff_toInt_lt, Int64.toInt_zero, htop]
  split
  · rw [Int64.toInt_zero]
    omega
  · split
    · rw [htop]
      omega
    · omega

theorem ofWord?_eq (points : Int64) : ofWord? points = some (ofInt points.toInt) := by
  have hvalue := toInt_clampWord points
  have hword : uint32? (clampWord points) = some (.ofNat (clampWord points).toInt.toNat) := by
    refine if_pos ⟨?_, ?_⟩
    · omega
    · rw [hvalue, scale, UInt32.size]
      omega
  have hpoints : (UInt32.ofNat (clampWord points).toInt.toNat).toNat =
      (ofInt points.toInt).points := by
    rw [UInt32.toNat_ofNat_of_lt', hvalue]
    · rfl
    · rw [hvalue, scale, UInt32.size]
      omega
  rw [ofWord?, hword]
  simp only [Option.bind_eq_bind, Option.bind_some, hpoints]
  exact dif_pos (ofInt points.toInt).points_le

theorem ofRolls?_eq (attack defence : Int64) :
    ofRolls? attack defence = some (ofRolls attack defence) := by
  unfold ofRolls? ofRolls
  split
  · split
    · rfl
    · next hattack =>
      rw [Int64.not_lt, Int64.le_iff_toInt_le, Int64.toInt_zero] at hattack
      have hdivisor := two_le_divisorWord hattack
      obtain ⟨share, hshare, hvalue⟩ := exists_div? (mulSat (addSat defence 2) 10000)
        (n := divisorWord attack) (by omega)
      have hpoints : (subSat 10000 share).toInt = favoured attack.toInt defence.toInt := by
        rw [subSat, toInt_ofIntClamp, hvalue, toInt_divisorWord]
        simp only [mulSat, addSat, toInt_ofIntClamp]
        rfl
      simp only [hshare, Option.bind_eq_bind, Option.bind_some, ofWord?_eq, hpoints]
  · split
    · rfl
    · next hdefence =>
      rw [Int64.not_lt, Int64.le_iff_toInt_le, Int64.toInt_zero] at hdefence
      have hdivisor := two_le_divisorWord hdefence
      obtain ⟨share, hshare, hvalue⟩ := exists_div? (mulSat attack 10000)
        (n := divisorWord defence) (by omega)
      have hpoints : share.toInt = outmatched attack.toInt defence.toInt := by
        rw [hvalue, toInt_divisorWord]
        simp only [mulSat, toInt_ofIntClamp]
        rfl
      simp only [hshare, Option.bind_eq_bind, Option.bind_some, ofWord?_eq, hpoints]

end HitChance

namespace Engagement
variable (engagement : Engagement) (reference : MagicReference)

/-- The attack roll, if its product is defined; what is scaled is cut to a word anyway. -/
def attackRoll? : Option Int64 :=
  (baseRoll? engagement.offenceLevel engagement.offenceBonus).map fun base =>
    scaleRoll base engagement.multiplier

def defenceRoll? : Option Int64 :=
  baseRoll?
    (loweredLevel (engagement.defender.attributes.defenceLevel engagement.attack.defenceChannel)
      (engagement.reduction reference))
    (engagement.defenceBonus reference)

def rolls? : Option Rolls := do
  some { attack := ← engagement.attackRoll?, defence := ← engagement.defenceRoll? reference }

def hitChance? : Option HitChance := do
  let rolls ← engagement.rolls? reference
  HitChance.ofRolls? rolls.attack rolls.defence

theorem rolls?_eq (evaluator : Evaluator) :
    engagement.rolls? evaluator.reference = some (evaluator.rolls engagement) := by
  have hattack : engagement.attackRoll? = some (evaluator.rolls engagement).attack := by
    rw [attackRoll?, baseRoll?_eq, attack_rolls]
    rfl
  have hdefence :
      engagement.defenceRoll? evaluator.reference = some (evaluator.rolls engagement).defence := by
    rw [defenceRoll?, baseRoll?_eq, loweredLevel_eq, defence_rolls]
    rfl
  rw [rolls?, hattack, hdefence]
  rfl

theorem hitChance?_eq (evaluator : Evaluator) :
    engagement.hitChance? evaluator.reference = some (evaluator.hitChance engagement).value := by
  rw [hitChance?, rolls?_eq]
  exact HitChance.ofRolls?_eq _ _

end Engagement

/-- No step of an evaluation is undefined. In turn: a level times its offset bonus is the
mathematical product, through sums and products of 64 bits; a level lowered in 32 bits is the
mathematical one; whenever the stronger roll lets the reduction divide at all, it divides by 2 or
more, and every word has a quotient by that; every word of points, cut to the scale, is a 32-bit
number on it; so two rolls always have a chance, and every engagement has its rolls and its chance,
with any reference data. -/
theorem evaluation_defined :
    (∀ level bonus : Int32, ∃ offset,
      add? bonus.toInt64 64 = some offset ∧ offset.toInt = bonus.toInt + 64 ∧
        mul? level.toInt64 offset = some (baseRoll level bonus) ∧
        (baseRoll level bonus).toInt = level.toInt * (bonus.toInt + 64)) ∧
    (∀ level reduction : Int32, 0 < reduction →
      (loweredLevel level reduction).toInt = max 0 (level.toInt - reduction.toInt)) ∧
    (∀ attack defence : Int64,
      let stronger := if defence < attack then attack else defence
      0 ≤ stronger → 2 ≤ (HitChance.divisorWord stronger).toInt ∧
        ∀ numerator, ∃ quotient, div? numerator (HitChance.divisorWord stronger) = some quotient ∧
          quotient.toInt = numerator.toInt / (HitChance.divisorWord stronger).toInt) ∧
    (∀ points : Int64, HitChance.ofWord? points = some (.ofInt points.toInt)) ∧
    (∀ attack defence : Int64,
      HitChance.ofRolls? attack defence = some (.ofRolls attack defence)) ∧
    ∀ (evaluator : Evaluator) (engagement : Engagement),
      engagement.rolls? evaluator.reference = some (evaluator.rolls engagement) ∧
        engagement.hitChance? evaluator.reference =
          some (evaluator.hitChance engagement).value := by
  refine ⟨?_, fun _ _ => toInt_loweredLevel, ?_, HitChance.ofWord?_eq, HitChance.ofRolls?_eq, ?_⟩
  · intro level bonus
    obtain ⟨offset, hoffset, hvalue⟩ := add?_bonus bonus
    have hroll := baseRoll?_eq level bonus
    rw [baseRoll?, hoffset] at hroll
    exact ⟨offset, hoffset, hvalue, hroll, toInt_baseRoll level bonus⟩
  · intro attack defence stronger h0
    rw [Int64.le_iff_toInt_le, Int64.toInt_zero] at h0
    have hdivisor := HitChance.two_le_divisorWord h0
    exact ⟨hdivisor, fun numerator => exists_div? numerator (by omega)⟩
  · intro evaluator engagement
    exact ⟨engagement.rolls?_eq evaluator, engagement.hitChance?_eq evaluator⟩

theorem evaluation_defined_at_extremes :
    (loweredLevel Int32.minValue Int32.maxValue).toInt =
        max 0 (Int32.minValue.toInt - Int32.maxValue.toInt) ∧
      2 ≤ (HitChance.divisorWord Int64.maxValue).toInt ∧
      (∃ quotient, div? Int64.minValue (HitChance.divisorWord Int64.maxValue) = some quotient ∧
        quotient.toInt =
          Int64.minValue.toInt / (HitChance.divisorWord Int64.maxValue).toInt) := by
  have hlevel := evaluation_defined.2.1 Int32.minValue Int32.maxValue (by decide)
  have hdivisor := evaluation_defined.2.2.1 Int64.maxValue Int64.minValue (by decide)
  exact ⟨hlevel, hdivisor.1, hdivisor.2 Int64.minValue⟩

end CombatAccuracy
