import CombatAccuracy.HitChance
/-!
# The reduction in unbounded integers

The reduction holds every intermediate result within 64 bits. As long as the smaller roll is at most
`exactLimit` this never shows: the numerator fits, and a divisor that was cut short still exceeds
it. For two neighbouring rolls above the limit it does (`ofRolls_exact`).
-/
namespace CombatAccuracy.HitChance

/-- The largest roll that, with two more and then scaled, has 64 bits. -/
def exactLimit : Int := 922337203685475

/-- The number of points on the scale that is nearest. -/
def clamp (points : Int) : Int :=
  max 0 (min points 10000)

/-- The reduction in unbounded integers, where division rounds down. -/
def exactPoints (attack defence : Int) : Int :=
  if attack < 0 then 0
  else if defence < attack then clamp (10000 - (defence + 2) * 10000 / (2 * (attack + 1)))
  else attack * 10000 / (2 * (defence + 1))

theorem points_ofInt (points : Int) : ((ofInt points).points : Int) = clamp points := by
  simp only [ofInt, clamp, scale]
  omega

theorem points_ofRolls (attack defence : Int64) :
    ((ofRolls attack defence).points : Int) =
      if defence.toInt < attack.toInt then
        if attack.toInt < 0 then 0 else clamp (favoured attack.toInt defence.toInt)
      else
        if defence.toInt < 0 then 0 else clamp (outmatched attack.toInt defence.toInt) := by
  unfold ofRolls
  simp only [gt_iff_lt, Int64.lt_iff_toInt_lt, Int64.toInt_zero]
  split <;> split
  · rfl
  · exact points_ofInt _
  · rfl
  · exact points_ofInt _

theorem saturate_eq (n : Int) :
    saturate n = max (-9223372036854775808) (min n 9223372036854775807) :=
  rfl

theorem divisor_of_nonneg {n : Int} (h0 : 0 ≤ n) :
    divisor n = min (2 * (n + 1)) Int64.maxValue.toInt := by
  rw [Int64.toInt_maxValue]
  simp only [divisor, saturate_eq]
  omega

theorem ediv_min {n k top : Int} (h0 : 0 ≤ n) (h : n < top) : n / min k top = n / k := by
  by_cases hk : k ≤ top
  · rw [Int.min_eq_left hk]
  · have htop : n / top = 0 := Int.ediv_eq_zero_of_lt h0 h
    have hfull : n / k = 0 := Int.ediv_eq_zero_of_lt h0 (by omega)
    rw [Int.min_eq_right (by omega), htop, hfull]

/-- The defender's share of the scale when the attack roll is the greater one. -/
def defenderShare (attack defence : Int) : Int :=
  saturate (saturate (defence + 2) * scale) / divisor attack

/-- A difference that leaves 64 bits is off the scale anyway, so the last cut does not show. -/
theorem clamp_favoured_eq (attack defence : Int) :
    clamp (favoured attack defence) = clamp (10000 - defenderShare attack defence) := by
  rw [favoured, ← defenderShare]
  simp only [clamp, saturate_eq, scale]
  omega

private theorem defenderShare_of_neg {attack defence : Int} (h0 : 0 ≤ attack)
    (hneg : defence + 2 < 0) : defenderShare attack defence < 0 := by
  apply Int.ediv_neg_of_neg_of_pos
  · simp only [saturate_eq, scale]
    omega
  · rw [divisor_of_nonneg h0, Int64.toInt_maxValue]
    omega

private theorem defenderShare_of_nonneg {attack defence : Int} (h0 : 0 ≤ attack)
    (hdefence : 0 ≤ defence + 2) (hlimit : defence ≤ exactLimit) :
    defenderShare attack defence = (defence + 2) * 10000 / (2 * (attack + 1)) := by
  have hnumerator : saturate (saturate (defence + 2) * scale) = (defence + 2) * 10000 := by
    simp only [exactLimit] at hlimit
    simp only [saturate_eq, scale]
    omega
  unfold defenderShare
  rw [hnumerator, divisor_of_nonneg h0, Int64.toInt_maxValue]
  apply ediv_min
  · omega
  · simp only [exactLimit] at hlimit
    omega

theorem clamp_favoured {attack defence : Int} (h0 : 0 ≤ attack) (hlimit : defence ≤ exactLimit) :
    clamp (favoured attack defence) =
      clamp (10000 - (defence + 2) * 10000 / (2 * (attack + 1))) := by
  rw [clamp_favoured_eq]
  by_cases hneg : defence + 2 < 0
  · have hcut := defenderShare_of_neg h0 hneg
    have hfull : (defence + 2) * 10000 / (2 * (attack + 1)) < 0 :=
      Int.ediv_neg_of_neg_of_pos (by omega) (by omega)
    simp only [clamp]
    omega
  · rw [defenderShare_of_nonneg h0 (by omega) hlimit]

theorem outmatched_of_le {attack defence : Int} (h0 : 0 ≤ attack) (hle : attack ≤ defence)
    (hlimit : attack ≤ exactLimit) :
    outmatched attack defence = attack * 10000 / (2 * (defence + 1)) := by
  have hnumerator : saturate (attack * scale) = attack * 10000 := by
    simp only [exactLimit] at hlimit
    simp only [saturate_eq, scale]
    omega
  unfold outmatched
  rw [hnumerator, divisor_of_nonneg (by omega), Int64.toInt_maxValue]
  apply ediv_min
  · omega
  · simp only [exactLimit] at hlimit
    omega

theorem outmatched_le_half {attack defence : Int} (h0 : 0 ≤ attack) (hle : attack ≤ defence) :
    0 ≤ attack * 10000 / (2 * (defence + 1)) ∧
      attack * 10000 / (2 * (defence + 1)) ≤ 5000 := by
  constructor
  · exact Int.ediv_nonneg (by omega) (by omega)
  · exact Int.ediv_le_of_le_mul (by omega) (by omega)

private theorem clamp_outmatched_of_neg {attack defence : Int} (hneg : attack < 0)
    (h0 : 0 ≤ defence) : clamp (outmatched attack defence) = 0 := by
  have h : outmatched attack defence < 0 := by
    unfold outmatched
    apply Int.ediv_neg_of_neg_of_pos
    · simp only [saturate_eq, scale]
      omega
    · rw [divisor_of_nonneg h0, Int64.toInt_maxValue]
      omega
  simp only [clamp]
  omega

/-- The reduction as it is computed, of integers: a negative attack roll has no chance, whatever it
meets. -/
def heldPoints (attack defence : Int) : Int :=
  if attack < 0 then 0
  else if defence < attack then clamp (favoured attack defence)
  else clamp (outmatched attack defence)

theorem points_ofRolls_eq (attack defence : Int64) :
    ((ofRolls attack defence).points : Int) = heldPoints attack.toInt defence.toInt := by
  rw [points_ofRolls]
  unfold heldPoints
  by_cases hneg : attack.toInt < 0
  · rw [if_pos hneg, if_pos hneg]
    split
    · rfl
    · split
      · rfl
      · exact clamp_outmatched_of_neg hneg (by omega)
  · rw [if_neg hneg, if_neg hneg]
    split
    · rfl
    · rw [if_neg (by omega)]

theorem heldPoints_of_le_limit {attack defence : Int} (hlimit : min attack defence ≤ exactLimit) :
    heldPoints attack defence = exactPoints attack defence := by
  unfold heldPoints exactPoints
  by_cases hneg : attack < 0
  · rw [if_pos hneg, if_pos hneg]
  · rw [if_neg hneg, if_neg hneg]
    by_cases hlt : defence < attack
    · rw [if_pos hlt, if_pos hlt]
      exact clamp_favoured (by omega) (by omega)
    · have hhalf := outmatched_le_half (by omega : 0 ≤ attack) (Int.not_lt.mp hlt)
      rw [if_neg hlt, if_neg hlt, outmatched_of_le (by omega) (by omega) (by omega)]
      simp only [clamp]
      omega

theorem points_ofRolls_of_le_limit {attack defence : Int64}
    (hlimit : min attack.toInt defence.toInt ≤ exactLimit) :
    ((ofRolls attack defence).points : Int) = exactPoints attack.toInt defence.toInt := by
  rw [points_ofRolls_eq]
  exact heldPoints_of_le_limit hlimit

/-- Above the limit the numerator is cut short, and the quotient misses its half of the scale. -/
private theorem favoured_succ_of_limit_lt {defence : Int} (hlimit : exactLimit < defence) :
    5000 < favoured (defence + 1) defence := by
  have htop := Int64.toInt_maxValue
  simp only [exactLimit] at hlimit
  have hnumerator : saturate (saturate (defence + 2) * scale) = Int64.maxValue.toInt := by
    rw [htop]
    simp only [saturate_eq, scale]
    omega
  have hdivisor : divisor (defence + 1) = min (2 * (defence + 2)) Int64.maxValue.toInt := by
    rw [divisor_of_nonneg (by omega), Int.add_assoc]
    rfl
  have hhigh : Int64.maxValue.toInt / divisor (defence + 1) < 5000 := by
    apply Int.ediv_lt_of_lt_mul
    · omega
    · omega
  have hlow : 0 ≤ Int64.maxValue.toInt / divisor (defence + 1) :=
    Int.ediv_nonneg (by omega) (by omega)
  unfold favoured
  rw [hnumerator]
  generalize Int64.maxValue.toInt / divisor (defence + 1) = quotient at hhigh hlow
  simp only [saturate_eq, scale]
  omega

theorem exactPoints_succ {defence : Int} (h0 : 0 ≤ defence) :
    exactPoints (defence + 1) defence = 5000 := by
  have hquotient : (defence + 2) * 10000 / (2 * (defence + 1 + 1)) = 5000 := by
    rw [show (defence + 2) * 10000 = 5000 * (2 * (defence + 1 + 1)) by omega]
    exact Int.mul_ediv_cancel _ (by omega)
  unfold exactPoints
  rw [if_neg (by omega), if_pos (by omega), hquotient]
  rfl

/-- The reduction is exact while the smaller roll is at most `exactLimit`, and the limit is sharp:
above it, an attack roll one more than the defence roll gets more than its half of the scale. -/
theorem ofRolls_exact :
    (∀ attack defence : Int64, min attack.toInt defence.toInt ≤ exactLimit →
      ((ofRolls attack defence).points : Int) = exactPoints attack.toInt defence.toInt) ∧
    (∀ defence : Int64, exactLimit < defence.toInt → defence < Int64.maxValue →
      exactPoints (defence + 1).toInt defence.toInt = 5000 ∧
        5000 < (ofRolls (defence + 1) defence).points) ∧
    ∀ attack defence : Int64, (ofRolls attack defence).points ≤ 10000 := by
  refine ⟨fun _ _ => points_ofRolls_of_le_limit, ?_, fun attack defence => ?_⟩
  · intro defence hlimit hmax
    have h0 : 0 ≤ defence.toInt := by
      simp only [exactLimit] at hlimit
      omega
    have htop := Int64.toInt_maxValue
    rw [Int64.lt_iff_toInt_lt] at hmax
    have hsucc : (defence + 1).toInt = defence.toInt + 1 := by
      rw [Int64.toInt_add, Int64.toInt_one]
      exact Int.bmod_eq_of_le (by omega) (by omega)
    have hfavoured := favoured_succ_of_limit_lt hlimit
    have hpoints := points_ofRolls (defence + 1) defence
    rw [hsucc, if_pos (by omega), if_neg (by omega)] at hpoints
    refine ⟨?_, ?_⟩
    · rw [hsucc]
      exact exactPoints_succ h0
    · simp only [clamp] at hpoints
      omega
  · exact (ofRolls attack defence).points_le

theorem ofRolls_exact_around_limit :
    ((ofRolls Int64.maxValue 922337203685475).points : Int) =
        exactPoints Int64.maxValue.toInt (922337203685475 : Int64).toInt ∧
      5000 < (ofRolls (922337203685476 + 1) 922337203685476).points :=
  ⟨ofRolls_exact.1 Int64.maxValue 922337203685475 (by decide),
    (ofRolls_exact.2.1 922337203685476 (by decide) (by decide)).2⟩

end CombatAccuracy.HitChance
