import CombatAccuracy.Proofs.Reduction
import Mathlib.Data.Rat.Floor
/-!
# The order of hit chances

A chance never falls when the attack roll rises or the defence roll drops (`ofRolls_mono`): what is
cut to 64 bits keeps its order, so each of the two reductions is monotone, and they meet at half of
the scale, which an attack roll reaches exactly if it is the greater one and not negative. So when
two sides swap their rolls at most one of them is favoured, and of the whole scale their chances
leave out no more than a tie's share (`ofRolls_swap`).
-/
namespace CombatAccuracy.HitChance

theorem saturate_mono {m n : Int} (h : m ≤ n) : saturate m ≤ saturate n := by
  simp only [saturate_eq]
  omega

theorem divisor_mono {m n : Int} (h : m ≤ n) : divisor m ≤ divisor n := by
  have hsucc : saturate (m + 1) ≤ saturate (n + 1) := saturate_mono (by omega)
  exact saturate_mono (by omega)

theorem divisor_pos {n : Int} (h0 : 0 ≤ n) : 0 < divisor n := by
  rw [divisor_of_nonneg h0, Int64.toInt_maxValue]
  omega

theorem ediv_le_max_ediv {m n k l : Int} (hl : 0 < l) (hlk : l ≤ k) (hmn : m ≤ n) :
    m / k ≤ max 0 (n / l) := by
  by_cases hneg : m < 0
  · have hquotient : m / k < 0 := Int.ediv_neg_of_neg_of_pos hneg (by omega)
    omega
  · have hquotient : 0 ≤ m / k := Int.ediv_nonneg (by omega) (by omega)
    have hle : m / k ≤ n / l := by
      apply Int.le_ediv_of_mul_le hl
      calc m / k * l ≤ m / k * k := Int.mul_le_mul_of_nonneg_left hlk hquotient
        _ ≤ m := Int.ediv_mul_le m (by omega)
        _ ≤ n := hmn
    omega

section Shares
variable {attack attack' defence defence' : Int}

theorem defenderShare_le_max (h0 : 0 ≤ attack) (hattack : attack ≤ attack')
    (hdefence : defence' ≤ defence) :
    defenderShare attack' defence' ≤ max 0 (defenderShare attack defence) := by
  have hsum : saturate (defence' + 2) ≤ saturate (defence + 2) := saturate_mono (by omega)
  have hnumerator : saturate (saturate (defence' + 2) * scale) ≤
      saturate (saturate (defence + 2) * scale) :=
    saturate_mono (Int.mul_le_mul_of_nonneg_right hsum (by decide))
  exact ediv_le_max_ediv (divisor_pos h0) (divisor_mono hattack) hnumerator

theorem outmatched_le_max (h0 : 0 ≤ defence') (hattack : attack ≤ attack')
    (hdefence : defence' ≤ defence) :
    outmatched attack defence ≤ max 0 (outmatched attack' defence') := by
  have hnumerator : saturate (attack * scale) ≤ saturate (attack' * scale) :=
    saturate_mono (Int.mul_le_mul_of_nonneg_right hattack (by decide))
  exact ediv_le_max_ediv (divisor_pos h0) (divisor_mono hdefence) hnumerator

theorem defenderShare_le_half (h0 : 0 ≤ attack) (hlt : defence < attack) :
    defenderShare attack defence ≤ 5000 := by
  apply Int.ediv_le_of_le_mul (divisor_pos h0)
  rw [divisor_of_nonneg h0, Int64.toInt_maxValue]
  simp only [saturate_eq, scale]
  omega

theorem outmatched_lt_half (h0 : 0 ≤ attack) (hle : attack ≤ defence) :
    outmatched attack defence < 5000 := by
  have hdefence : 0 ≤ defence := by omega
  apply Int.ediv_lt_of_lt_mul (divisor_pos hdefence)
  rw [divisor_of_nonneg hdefence, Int64.toInt_maxValue]
  simp only [saturate_eq, scale]
  omega

theorem outmatched_le_defenderShare (h0 : 0 ≤ attack) :
    outmatched defence attack ≤ defenderShare attack defence := by
  apply Int.ediv_le_ediv (divisor_pos h0)
  simp only [saturate_eq, scale]
  omega

end Shares

theorem heldPoints_mem (attack defence : Int) :
    0 ≤ heldPoints attack defence ∧ heldPoints attack defence ≤ 10000 := by
  simp only [heldPoints, clamp]
  omega

/-- An attack roll reaches half of the scale exactly if it is the greater one and not negative. -/
theorem half_le_heldPoints_iff {attack defence : Int} :
    5000 ≤ heldPoints attack defence ↔ 0 ≤ attack ∧ defence < attack := by
  unfold heldPoints
  by_cases hneg : attack < 0
  · rw [if_pos hneg]
    omega
  · rw [if_neg hneg]
    by_cases hlt : defence < attack
    · have hhalf := defenderShare_le_half (by omega) hlt
      rw [if_pos hlt, clamp_favoured_eq]
      simp only [clamp]
      omega
    · have hhalf := outmatched_lt_half (by omega) (Int.not_lt.mp hlt)
      rw [if_neg hlt]
      simp only [clamp]
      omega

theorem heldPoints_mono {attack attack' defence defence' : Int} (hattack : attack ≤ attack')
    (hdefence : defence' ≤ defence) :
    heldPoints attack defence ≤ heldPoints attack' defence' := by
  by_cases hneg : attack < 0
  · have hmem := heldPoints_mem attack' defence'
    rw [heldPoints, if_pos hneg]
    exact hmem.1
  by_cases hlt : defence < attack
  · have hshare := defenderShare_le_max (by omega) hattack hdefence
    unfold heldPoints
    rw [if_neg hneg, if_pos hlt, if_neg (by omega), if_pos (by omega), clamp_favoured_eq,
      clamp_favoured_eq]
    simp only [clamp]
    omega
  by_cases hlt' : defence' < attack'
  · have hbefore := mt half_le_heldPoints_iff.mp fun h => hlt h.2
    have hafter := half_le_heldPoints_iff.mpr ⟨(by omega : 0 ≤ attack'), hlt'⟩
    omega
  · have hshare := outmatched_le_max (by omega) hattack hdefence
    unfold heldPoints
    rw [if_neg hneg, if_neg hlt, if_neg (by omega), if_neg hlt']
    simp only [clamp]
    omega

/-- The chance never falls when the attack roll rises or the defence roll drops, for all rolls. -/
theorem ofRolls_mono {attack attack' defence defence' : Int64} (hattack : attack ≤ attack')
    (hdefence : defence' ≤ defence) :
    (ofRolls attack defence).points ≤ (ofRolls attack' defence').points := by
  rw [Int64.le_iff_toInt_le] at hattack hdefence
  have hheld := heldPoints_mono hattack hdefence
  rw [← points_ofRolls_eq, ← points_ofRolls_eq] at hheld
  omega

theorem ofRolls_mono_at_extremes :
    (ofRolls 922337203685478 Int64.maxValue).points ≤
        (ofRolls Int64.maxValue 922337203685477).points ∧
      (ofRolls 0 0).points ≤ (ofRolls 0 Int64.minValue).points :=
  ⟨ofRolls_mono (by decide) (by decide), ofRolls_mono (by decide) (by decide)⟩

section Swap
variable {attack defence : Int}

theorem heldPoints_add_swap_of_lt (hlt : defence < attack) :
    heldPoints attack defence + heldPoints defence attack ≤ 10000 := by
  by_cases hneg : defence < 0
  · have hmem := heldPoints_mem attack defence
    have hswapped : heldPoints defence attack = 0 := if_pos hneg
    omega
  · have hshare : outmatched defence attack ≤ defenderShare attack defence :=
      outmatched_le_defenderShare (by omega)
    unfold heldPoints
    rw [if_neg (by omega), if_pos hlt, if_neg hneg, if_neg (by omega), clamp_favoured_eq]
    simp only [clamp]
    omega

theorem heldPoints_add_swap_le (attack defence : Int) :
    heldPoints attack defence + heldPoints defence attack ≤ 10000 := by
  rcases Int.lt_trichotomy attack defence with hlt | rfl | hgt
  · rw [Int.add_comm]
    exact heldPoints_add_swap_of_lt hlt
  · have hhalf := mt half_le_heldPoints_iff.mp fun h => Int.lt_irrefl attack h.2
    omega
  · exact heldPoints_add_swap_of_lt hgt

theorem exactPoints_add_swap_ge {part : Int} (h0 : 0 ≤ defence) (hlt : defence < attack)
    (hpart : 10000 ≤ part * (attack + 1)) :
    10000 - part ≤ exactPoints attack defence + exactPoints defence attack := by
  have hdivisor : 0 < 2 * (attack + 1) := by omega
  have hwider : (defence + 2) * 10000 / (2 * (attack + 1)) ≤
      defence * 10000 / (2 * (attack + 1)) + part := by
    rw [← Int.add_mul_ediv_right _ _ hdivisor.ne', Int.mul_left_comm]
    exact Int.ediv_le_ediv hdivisor (by omega)
  have hnonneg : 0 ≤ (defence + 2) * 10000 / (2 * (attack + 1)) :=
    Int.ediv_nonneg (by omega) (by omega)
  unfold exactPoints
  rw [if_neg (by omega), if_pos hlt, if_neg (by omega), if_neg (by omega)]
  simp only [clamp]
  omega

/-- A tie's share is one part in `attack + 1`, and two chances leave at most that, rounded up. -/
theorem heldPoints_shortfall_le (h0 : 0 ≤ defence) (hlt : defence < attack)
    (hlimit : defence ≤ exactLimit) :
    10000 - (heldPoints attack defence + heldPoints defence attack) ≤
      ⌈(10000 : ℚ) / (attack + 1)⌉ := by
  have hpart : 10000 ≤ ⌈(10000 : ℚ) / (attack + 1)⌉ * (attack + 1) := by
    have hceil := Int.le_ceil ((10000 : ℚ) / (attack + 1))
    have hpos : (0 : ℚ) < attack + 1 := by
      exact_mod_cast (by omega : 0 < attack + 1)
    rw [div_le_iff₀ hpos] at hceil
    exact_mod_cast hceil
  rw [heldPoints_of_le_limit (by omega), heldPoints_of_le_limit (by omega)]
  have hsum := exactPoints_add_swap_ge h0 hlt hpart
  omega

end Swap

/-- An attack roll reaches half of the scale exactly if it is the greater one and not negative, and
two sides that swap their rolls never have more than the whole scale. What unequal rolls leave of
it, while the reduction is exact, is at most a tie's share: one part in as many as the greater roll
has outcomes, rounded up. -/
theorem ofRolls_swap :
    (∀ attack defence : Int64,
      5000 ≤ (ofRolls attack defence).points ↔ 0 ≤ attack ∧ defence < attack) ∧
    (∀ attack defence : Int64,
      (ofRolls attack defence).points + (ofRolls defence attack).points ≤ 10000) ∧
    ∀ attack defence : Int64, 0 ≤ attack → 0 ≤ defence → attack ≠ defence →
      min attack.toInt defence.toInt ≤ exactLimit →
      10000 - (((ofRolls attack defence).points : Int) + (ofRolls defence attack).points) ≤
        ⌈(10000 : ℚ) / ((max attack.toInt defence.toInt : Int) + 1)⌉ := by
  refine ⟨?_, ?_, ?_⟩
  · intro attack defence
    rw [Int64.le_iff_toInt_le, Int64.lt_iff_toInt_lt, Int64.toInt_zero, ← half_le_heldPoints_iff,
      ← points_ofRolls_eq]
    omega
  · intro attack defence
    have hsum := heldPoints_add_swap_le attack.toInt defence.toInt
    rw [← points_ofRolls_eq, ← points_ofRolls_eq] at hsum
    omega
  · intro attack defence hattack hdefence hne hlimit
    rw [Int64.le_iff_toInt_le, Int64.toInt_zero] at hattack hdefence
    rw [points_ofRolls_eq, points_ofRolls_eq]
    rcases Int.lt_trichotomy attack.toInt defence.toInt with hlt | heq | hgt
    · rw [Int.add_comm, Int.max_eq_right (by omega)]
      exact heldPoints_shortfall_le hattack hlt (by omega)
    · exact absurd (Int64.toInt_inj.mp heq) hne
    · rw [Int.max_eq_left (by omega)]
      exact heldPoints_shortfall_le hdefence hgt (by omega)

theorem ofRolls_swap_at_limit :
    10000 - (((ofRolls 922337203685475 Int64.maxValue).points : Int) +
        (ofRolls Int64.maxValue 922337203685475).points) ≤
      ⌈(10000 : ℚ) / ((max (922337203685475 : Int64).toInt Int64.maxValue.toInt : Int) + 1)⌉ :=
  ofRolls_swap.2.2 922337203685475 Int64.maxValue (by decide) (by decide) (by decide) (by decide)

end CombatAccuracy.HitChance
