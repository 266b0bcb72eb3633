import Mathlib
/-!
# Doubles that need no rounding

A number that a double denotes exactly is left as it is by rounding
(`roundWithAccuracy_of_value_eq`), and so products and quotients that are exact are found as such
(`mul_exact`, `div_exact`).
-/
namespace CombatAccuracy.Double
open Float.Model Float.Model.UnpackedFloat

/-- The mantissa and the exponent of a positive double: 53 significant bits, or fewer with the least
exponent. -/
structure Canonical (mantissa : Nat) (exponent : Int) : Prop where
  pos : 0 < mantissa
  lt : mantissa < 2 ^ 53
  least : -1074 ≤ exponent
  most : exponent ≤ 971
  full : exponent = -1074 ∨ 2 ^ 52 ≤ mantissa

def value (mantissa : Nat) (exponent : Int) : ℚ :=
  mantissa * 2 ^ exponent

section Exact
variable {m m' : Nat} {e e' : Int}

theorem eq_shiftLeft_of_value_eq (h : value m' e' = value m e) (he : e' ≤ e) :
    m' = m <<< (e - e').toNat := by
  have hsplit : (2 : ℚ) ^ e = 2 ^ (e - e').toNat * 2 ^ e' := by
    rw [← zpow_natCast, ← zpow_add₀ two_ne_zero, Int.toNat_of_nonneg (by omega)]
    congr 1
    omega
  have hpos : (2 : ℚ) ^ e' ≠ 0 := zpow_ne_zero e' two_ne_zero
  rw [value, value, hsplit, ← mul_assoc] at h
  have hcast : (m' : ℚ) = m * 2 ^ (e - e').toNat := mul_right_cancel₀ hpos h
  rw [Nat.shiftLeft_eq]
  exact_mod_cast hcast

theorem eq_of_value_eq (h : value m' e = value m e) : m' = m := by
  have hshift := eq_shiftLeft_of_value_eq h le_rfl
  rwa [Int.sub_self, Int.toNat_zero, Nat.shiftLeft_zero] at hshift

theorem value_shiftLeft (m k : Nat) (e : Int) : value (m <<< k) (e - k) = value m e := by
  have hpow : (2 : ℚ) ^ k * 2 ^ (e - k) = 2 ^ e := by
    rw [← zpow_natCast, ← zpow_add₀ two_ne_zero]
    congr 1
    omega
  rw [value, value, Nat.shiftLeft_eq, ← hpow, ← mul_assoc]
  push_cast
  rfl

theorem value_mul (m m' : Nat) (e e' : Int) :
    value (m * m') (e + e') = value m e * value m' e' := by
  rw [value, value, value, zpow_add₀ two_ne_zero]
  push_cast
  exact mul_mul_mul_comm _ _ _ _

theorem value_nonneg (m : Nat) (e : Int) : 0 ≤ value m e :=
  mul_nonneg (Nat.cast_nonneg m) (zpow_pos two_pos e).le

theorem value_lt (m : Nat) (e : Int) : value m e < 2 ^ totalExponent m e := by
  have hlt : (m : ℚ) < 2 ^ (m.log2 + 1) := by exact_mod_cast Nat.lt_log2_self
  rw [value, totalExponent, zpow_add₀ two_ne_zero]
  refine mul_lt_mul_of_pos_right ?_ (zpow_pos two_pos e)
  exact_mod_cast hlt

theorem le_value (hm : 0 < m) (e : Int) : 2 ^ (totalExponent m e - 1) ≤ value m e := by
  have hle : (2 : ℚ) ^ m.log2 ≤ m := by exact_mod_cast Nat.log2_self_le hm.ne'
  have hexponent : totalExponent m e - 1 = m.log2 + e := by
    rw [totalExponent]
    omega
  rw [value, hexponent, zpow_add₀ two_ne_zero]
  refine mul_le_mul_of_nonneg_right ?_ (zpow_pos two_pos e).le
  exact_mod_cast hle

theorem log2_shiftLeft (hm : 0 < m) (k : Nat) : (m <<< k).log2 = m.log2 + k := by
  have hlow := Nat.log2_self_le hm.ne'
  have hhigh := @Nat.lt_log2_self m
  have hpos : 0 < 2 ^ k := Nat.two_pow_pos k
  rw [Nat.shiftLeft_eq, Nat.log2_eq_iff (Nat.mul_pos hm hpos).ne', Nat.pow_add,
    Nat.add_right_comm, Nat.pow_add]
  exact ⟨Nat.mul_le_mul_right _ hlow, Nat.mul_lt_mul_of_pos_right hhigh hpos⟩

theorem targetExponent_eq (t : Int) :
    Format.binary64.targetExponent t = max (t - 53) (-1074) :=
  rfl

namespace Canonical

theorem log2_lt (h : Canonical m e) : m.log2 < 53 :=
  (Nat.log2_lt h.pos.ne').mpr h.lt

theorem targetExponent (h : Canonical m e) :
    Format.binary64.targetExponent (totalExponent m e) = e := by
  have hlt := h.log2_lt
  have hleast := h.least
  rw [targetExponent_eq, totalExponent]
  rcases h.full with hleast | hfull
  · omega
  · have hge := (Nat.le_log2 h.pos.ne').mpr hfull
    omega

end Canonical

theorem shiftRightOne_shiftLeft (m k : Nat) :
    ExtendedMantissa.shiftRightOne ⟨m <<< (k + 1), false, false⟩ = ⟨m <<< k, false, false⟩ := by
  have htwice : m <<< (k + 1) = 2 * m <<< k := Nat.shiftLeft_succ m k
  have hhalf : m <<< (k + 1) / 2 = m <<< k := by omega
  have heven : m <<< (k + 1) % 2 = 0 := by omega
  simp only [ExtendedMantissa.shiftRightOne, hhalf, heven]
  rfl

theorem shiftRight_shiftLeft (m k : Nat) :
    (⟨m <<< k, false, false⟩ : ExtendedMantissa) >>> k = ⟨m, false, false⟩ := by
  have hrepeat : ∀ j, k.repeat ExtendedMantissa.shiftRightOne ⟨m <<< (j + k), false, false⟩ =
      ⟨m <<< j, false, false⟩ := by
    induction k with
    | zero => exact fun j => rfl
    | succ k ih =>
      intro j
      have hnext := ih (j + 1)
      rw [Nat.add_right_comm] at hnext
      rw [Nat.repeat, ← Nat.add_assoc, hnext, shiftRightOne_shiftLeft]
  have hall := hrepeat 0
  rwa [Nat.zero_add] at hall

theorem shiftToTargetExponent_shiftLeft (h : Canonical m e) (k : Nat) :
    shiftToTargetExponent Format.binary64 (m <<< k) (e - k) .exact = (⟨m, false, false⟩, e) := by
  have htotal : totalExponent (m <<< k) (e - k) = totalExponent m e := by
    rw [totalExponent, totalExponent, log2_shiftLeft h.pos]
    omega
  have hamount : (e - (e - k)).toNat = k := by omega
  have hstart : ExtendedMantissa.ofMantissaAndAccuracy (m <<< k) .exact =
      ⟨m <<< k, false, false⟩ := rfl
  rw [shiftToTargetExponent, htotal, h.targetExponent, shiftToExponent, hamount, hstart,
    shiftRight_shiftLeft, Int.sub_add_cancel]

theorem roundWithAccuracy_shiftLeft (h : Canonical m e) (s : Sign) (k : Nat) :
    roundWithAccuracy Format.binary64 s (m <<< k) (e - k) .exact = .finite s m e h.pos := by
  have hagain := shiftToTargetExponent_shiftLeft h 0
  have hrounded : (⟨m, false, false⟩ : ExtendedMantissa).roundedMantissa = m := rfl
  rw [Nat.shiftLeft_zero, Int.natCast_zero, Int.sub_zero] at hagain
  rw [roundWithAccuracy, shiftToTargetExponent_shiftLeft h k]
  dsimp only
  rw [hrounded, hagain]
  exact dif_neg h.pos.ne'

theorem roundWithAccuracy_of_value_eq (h : Canonical m e) (s : Sign)
    (hvalue : value m' e' = value m e) (he : e' ≤ e) :
    roundWithAccuracy Format.binary64 s m' e' .exact = .finite s m e h.pos := by
  have hround := roundWithAccuracy_shiftLeft h s (e - e').toNat
  rwa [← eq_shiftLeft_of_value_eq hvalue he, Int.toNat_of_nonneg (by omega), Int.sub_sub_self]
    at hround

section Operations
variable {m₁ m₂ : Nat} {e₁ e₂ : Int}

theorem mul_exact (h : Canonical m e) (h₁ : 0 < m₁) (h₂ : 0 < m₂)
    (hvalue : value m₁ e₁ * value m₂ e₂ = value m e) (he : e₁ + e₂ ≤ e) :
    UnpackedFloat.mul Format.binary64 (.finite .positive m₁ e₁ h₁) (.finite .positive m₂ e₂ h₂) =
      .finite .positive m e h.pos := by
  have hproduct : value (m₁ * m₂) (e₁ + e₂) = value m e := by
    rw [← hvalue, value_mul]
  exact roundWithAccuracy_of_value_eq h _ hproduct he

/-- The quotient is found with enough digits to be exact. -/
theorem divCore_exact (h : Canonical m e) (h₁ : 0 < m₁) (h₂ : 0 < m₂)
    (hvalue : value m₁ e₁ = value m₂ e₂ * value m e) :
    ∃ m' e', divCore Format.binary64 m₁ e₁ m₂ e₂ = (m', e', .exact) ∧ value m' e' = value m e ∧
      e' ≤ e := by
  let least := min (e₁ - e₂)
    (Format.binary64.targetExponent (totalExponent m₁ e₁ - totalExponent m₂ e₂))
  let places := (e₁ - e₂ - least).toNat
  let zeros := (e - least).toNat
  have hleast : least ≤ e := by
    have hbelow : (2 : ℚ) ^ (totalExponent m₁ e₁ - 1) <
        2 ^ (totalExponent m₂ e₂ + totalExponent m e) :=
      calc (2 : ℚ) ^ (totalExponent m₁ e₁ - 1)
        _ ≤ value m₂ e₂ * value m e := hvalue ▸ le_value h₁ e₁
        _ < 2 ^ totalExponent m₂ e₂ * 2 ^ totalExponent m e :=
          mul_lt_mul'' (value_lt m₂ e₂) (value_lt m e) (value_nonneg m₂ e₂) (value_nonneg m e)
        _ = 2 ^ (totalExponent m₂ e₂ + totalExponent m e) := (zpow_add₀ two_ne_zero _ _).symm
    have hexponent := (zpow_lt_zpow_iff_right₀ one_lt_two).mp hbelow
    have htarget := h.targetExponent
    rw [targetExponent_eq] at htarget
    refine (min_le_right _ _).trans ?_
    rw [targetExponent_eq]
    omega
  have hdividend : m₁ <<< places = m₂ * m <<< zeros := by
    have hplaces : e₁ - places = e₂ + least := by omega
    have hzeros : e - zeros = least := by omega
    have hscaled := value_shiftLeft m₁ places e₁
    rw [hvalue, ← value_shiftLeft m zeros e, hplaces, hzeros, ← value_mul] at hscaled
    exact eq_of_value_eq hscaled
  refine ⟨m <<< zeros, least, ?_, ?_, hleast⟩
  · change (m₁ <<< places / m₂, least, accuracyOfFraction (m₁ <<< places % m₂) m₂) = _
    rw [hdividend, Nat.mul_div_cancel_left _ h₂, Nat.mul_mod_right]
    rfl
  · rw [← value_shiftLeft m zeros e]
    congr 1
    omega

theorem div_exact (h : Canonical m e) (h₁ : 0 < m₁) (h₂ : 0 < m₂)
    (hvalue : value m₁ e₁ = value m₂ e₂ * value m e) :
    UnpackedFloat.div Format.binary64 (.finite .positive m₁ e₁ h₁) (.finite .positive m₂ e₂ h₂) =
      .finite .positive m e h.pos := by
  obtain ⟨m', e', hcore, hquotient, he⟩ := divCore_exact h h₁ h₂ hvalue
  rw [UnpackedFloat.div, hcore]
  exact roundWithAccuracy_of_value_eq h _ hquotient he

end Operations
end Exact
end CombatAccuracy.Double
