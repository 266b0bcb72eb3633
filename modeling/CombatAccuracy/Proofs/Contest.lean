import CombatAccuracy.Proofs.Reduction
import Mathlib.Algebra.BigOperators.Group.Finset.Piecewise
import Mathlib.Algebra.BigOperators.Group.Finset.Sigma
import Mathlib.Data.Rat.Floor
import Mathlib.Tactic.FieldSimp
import Mathlib.Tactic.Linarith
import Mathlib.Tactic.Ring
/-!
# The reduction as a contest

Both sides roll a number from zero up to their bound, all equally likely, and the attacker wins if
it rolls more. The outcomes are counted row by row of the attacker's roll; the hit chance is the
attacker's share of them, rounded in favour of whoever has the greater bound (`ofRolls_eq_share`).
-/
namespace CombatAccuracy
namespace Contest

open Finset

/-- The outcomes of a contest, the attacker's roll first. -/
def outcomes (attack defence : Nat) : Finset (Nat × Nat) :=
  range (attack + 1) ×ˢ range (defence + 1)

def wins (attack defence : Nat) : Finset (Nat × Nat) :=
  (outcomes attack defence).filter fun outcome => outcome.2 < outcome.1

/-- The attacker's share of 10000 points. -/
def share (attack defence : Nat) : ℚ :=
  10000 * (wins attack defence).card / (outcomes attack defence).card

theorem card_outcomes (attack defence : Nat) :
    (outcomes attack defence).card = (attack + 1) * (defence + 1) := by
  rw [outcomes, card_product, card_range, card_range]

theorem card_wins_zero (defence : Nat) : (wins 0 defence).card = 0 := by
  simp [wins, outcomes]

theorem card_wins_succ (attack defence : Nat) :
    (wins (attack + 1) defence).card =
      (wins attack defence).card + min (attack + 1) (defence + 1) := by
  have hrow : ((range (defence + 1)).filter (· < attack + 1)).card =
      min (attack + 1) (defence + 1) := by
    have hrange : (range (defence + 1)).filter (· < attack + 1) =
        range (min (attack + 1) (defence + 1)) := by
      ext roll
      simp only [mem_filter, mem_range]
      omega
    rw [hrange, card_range]
  simp only [wins, outcomes, card_filter, sum_product]
  rw [sum_range_succ, ← card_filter, hrow]

/-- Up to the defender's bound the wins form a triangle. -/
theorem two_mul_card_wins_of_le {attack defence : Nat} (h : attack ≤ defence) :
    2 * (wins attack defence).card = attack * (attack + 1) := by
  induction attack with
  | zero => rw [card_wins_zero]
  | succ attack ih =>
    have hrow : min (attack + 1) (defence + 1) = attack + 1 := by omega
    rw [card_wins_succ, hrow, Nat.mul_add, ih (by omega)]
    ring

/-- Past the defender's bound every further row is won whole. -/
theorem two_mul_card_wins_of_ge {attack defence : Nat} (h : defence ≤ attack) :
    2 * (wins attack defence).card + defence * (defence + 1) = 2 * attack * (defence + 1) := by
  induction attack, h using Nat.le_induction with
  | base =>
    rw [two_mul_card_wins_of_le le_rfl]
    ring
  | succ attack hle ih =>
    have hrow : min (attack + 1) (defence + 1) = defence + 1 := by omega
    rw [card_wins_succ, hrow]
    linarith

theorem share_of_lt {attack defence : Nat} (h : defence < attack) :
    share attack defence =
      10000 - (((defence + 2) * 10000 : Int) : ℚ) / ((2 * (attack + 1) : Nat) : ℚ) := by
  have hwins : (2 * (wins attack defence).card + defence * (defence + 1) : ℚ) =
      2 * attack * (defence + 1) := by
    exact_mod_cast two_mul_card_wins_of_ge h.le
  rw [share, card_outcomes]
  push_cast
  field_simp
  linarith

theorem share_of_le {attack defence : Nat} (h : attack ≤ defence) :
    share attack defence =
      ((attack * 10000 : Int) : ℚ) / ((2 * (defence + 1) : Nat) : ℚ) := by
  have hwins : (2 * (wins attack defence).card : ℚ) = attack * (attack + 1) := by
    exact_mod_cast two_mul_card_wins_of_le h
  rw [share, card_outcomes]
  push_cast
  field_simp
  linarith

theorem ceil_share_of_lt {attack defence : Nat} (h : defence < attack) :
    ⌈share attack defence⌉ =
      10000 - ((defence : Int) + 2) * 10000 / (2 * ((attack : Int) + 1)) := by
  rw [share_of_lt h, sub_eq_add_neg, show (10000 : ℚ) = ((10000 : Int) : ℚ) from rfl,
    Int.ceil_intCast_add, Int.ceil_neg, Rat.floor_intCast_div_natCast]
  push_cast
  ring

theorem floor_share_of_le {attack defence : Nat} (h : attack ≤ defence) :
    ⌊share attack defence⌋ = (attack : Int) * 10000 / (2 * ((defence : Int) + 1)) := by
  rw [share_of_le h, Rat.floor_intCast_div_natCast]
  push_cast
  rfl

end Contest

namespace HitChance

/-- The hit chance is the attacker's share of the contest's outcomes, as long as the reduction is
exact: rounded up when the attack roll is the greater one, and else rounded down. -/
theorem ofRolls_eq_share (attack defence : Int64) (hattack : 0 ≤ attack) (hdefence : 0 ≤ defence)
    (hlimit : min attack.toInt defence.toInt ≤ exactLimit) :
    let a := attack.toInt.toNat
    let d := defence.toInt.toNat
    (Contest.outcomes a d).card = (a + 1) * (d + 1) ∧
      (defence < attack → ((ofRolls attack defence).points : Int) = ⌈Contest.share a d⌉) ∧
      (attack ≤ defence → ((ofRolls attack defence).points : Int) = ⌊Contest.share a d⌋) := by
  rw [Int64.le_iff_toInt_le, Int64.toInt_zero] at hattack hdefence
  intro a d
  have ha : (a : Int) = attack.toInt := Int.toNat_of_nonneg hattack
  have hd : (d : Int) = defence.toInt := Int.toNat_of_nonneg hdefence
  have hpoints := points_ofRolls_of_le_limit hlimit
  unfold exactPoints at hpoints
  rw [if_neg (by omega), ← ha, ← hd] at hpoints
  refine ⟨Contest.card_outcomes a d, ?_, ?_⟩
  · intro hlt
    rw [Int64.lt_iff_toInt_lt] at hlt
    have hlow : 0 ≤ ((d : Int) + 2) * 10000 / (2 * ((a : Int) + 1)) :=
      Int.ediv_nonneg (by omega) (by omega)
    have hhigh : ((d : Int) + 2) * 10000 / (2 * ((a : Int) + 1)) ≤ 10000 :=
      Int.ediv_le_of_le_mul (by omega) (by omega)
    rw [hpoints, Contest.ceil_share_of_lt (by omega), if_pos (by omega)]
    simp only [clamp]
    omega
  · intro hle
    rw [Int64.le_iff_toInt_le] at hle
    rw [hpoints, Contest.floor_share_of_le (by omega), if_neg (by omega)]

theorem ofRolls_eq_share_either_way :
    ((ofRolls 100 50).points : Int) = ⌈Contest.share 100 50⌉ ∧
      ((ofRolls 50 100).points : Int) = ⌊Contest.share 50 100⌋ :=
  ⟨(ofRolls_eq_share 100 50 (by decide) (by decide) (by decide)).2.1 (by decide),
    (ofRolls_eq_share 50 100 (by decide) (by decide) (by decide)).2.2 (by decide)⟩

end HitChance
end CombatAccuracy
