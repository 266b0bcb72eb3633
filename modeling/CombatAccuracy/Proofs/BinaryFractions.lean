import CombatAccuracy.Proofs.DoubleBits
import CombatAccuracy.Proofs.Sources
/-!
# Multipliers that are binary fractions

A roll and its product with the numerator of a binary fraction need no rounding as long as they have
53 bits (`roundInt_mul_two_pow`), so scaling by such a fraction is an integer division that rounds
down (`floorMul_exact`).
-/
namespace CombatAccuracy
namespace Binary64

/-- Whether a double is finite and has this value. -/
def Denotes (x : Float) (q : ℚ) : Prop :=
  ∃ mantissa exponent : Int, ofFloat x = .finite mantissa exponent ∧ (mantissa : ℚ) * 2 ^ exponent = q

section Rounding

theorem roundNat_mul_two_pow {n : Nat} (h : n ≤ 2 ^ 53) (s : Nat) :
    roundNat (n * 2 ^ s) = n * 2 ^ s := by
  refine nearestMultiple_of_dvd ?_
  rw [Nat.one_shiftLeft]
  rcases Nat.lt_or_eq_of_le h with hlt | rfl
  · rcases Nat.eq_zero_or_pos n with rfl | hpos
    · rw [Nat.zero_mul]
      exact Nat.dvd_zero _
    · have hlog := (Nat.log2_lt hpos.ne').mpr hlt
      rw [← Nat.shiftLeft_eq, Double.log2_shiftLeft hpos, Nat.shiftLeft_eq]
      exact Nat.dvd_mul_left_of_dvd (Nat.pow_dvd_pow 2 (by omega)) n
  · rw [← Nat.pow_add, Nat.log2_two_pow]
    exact Nat.pow_dvd_pow 2 (by omega)

theorem roundInt_mul_two_pow {n : Int} (h : n.natAbs ≤ 2 ^ 53) (s : Nat) :
    roundInt (n * 2 ^ s) = n * 2 ^ s := by
  have habs : (n * 2 ^ s).natAbs = n.natAbs * 2 ^ s := by
    rw [Int.natAbs_mul, Int.natAbs_pow]
    rfl
  rw [roundInt, habs, roundNat_mul_two_pow h, ← habs, Int.sign_mul_natAbs]

theorem roundInt_of_le {n : Int} (h : n.natAbs ≤ 2 ^ 53) : roundInt n = n := by
  have hround := roundInt_mul_two_pow h 0
  rwa [pow_zero, mul_one] at hround

theorem floorScaled_eq_floor (n exponent : Int) :
    floorScaled n exponent = ⌊(n : ℚ) * 2 ^ exponent⌋ := by
  unfold floorScaled
  split
  · next hexponent =>
    obtain ⟨places, rfl⟩ := Int.eq_ofNat_of_zero_le hexponent
    rw [Int.shiftLeft_eq, Int.toNat_natCast, zpow_natCast]
    exact_mod_cast (Int.floor_intCast (n * 2 ^ places)).symm
  · next hexponent =>
    obtain ⟨places, hplaces⟩ := Int.eq_ofNat_of_zero_le (by omega : 0 ≤ -exponent)
    obtain rfl : exponent = -places := by omega
    rw [Int.neg_neg, Int.toNat_natCast, Int.shiftRight_eq_div_pow, zpow_neg, zpow_natCast,
      ← div_eq_mul_inv]
    exact_mod_cast (Rat.floor_intCast_div_natCast n (2 ^ places)).symm

theorem roundInt_mul_mantissa {n mantissa shift : Int} {k : Nat}
    (hscaled : (mantissa : ℚ) * 2 ^ shift = k) (hproduct : (n * k).natAbs ≤ 2 ^ 53) :
    roundInt (n * mantissa) = n * mantissa := by
  rcases Int.le_total 0 shift with hshift | hshift
  · obtain ⟨places, rfl⟩ := Int.eq_ofNat_of_zero_le hshift
    rw [zpow_natCast] at hscaled
    have hk : mantissa * 2 ^ places = k := by exact_mod_cast hscaled
    refine roundInt_of_le (le_trans ?_ hproduct)
    rw [← hk, ← mul_assoc, Int.natAbs_mul (n * mantissa), Int.natAbs_pow]
    exact Nat.le_mul_of_pos_right _ (Nat.pow_pos (by decide))
  · obtain ⟨places, hplaces⟩ := Int.eq_ofNat_of_zero_le (Int.neg_nonneg_of_nonpos hshift)
    obtain rfl : shift = -places := by omega
    rw [zpow_neg, zpow_natCast, ← div_eq_mul_inv, div_eq_iff (pow_ne_zero _ two_ne_zero)]
      at hscaled
    have hmantissa : mantissa = k * 2 ^ places := by exact_mod_cast hscaled
    rw [hmantissa, ← mul_assoc]
    exact roundInt_mul_two_pow hproduct places

/-- Scaling by a binary fraction is exact down to the last step, which rounds down. -/
theorem floorMul_exact {roll : Int64} {mantissa exponent : Int} {k j : Nat}
    (hvalue : (mantissa : ℚ) * 2 ^ exponent = k / 2 ^ j) (hroll : roll.toInt.natAbs ≤ 2 ^ 53)
    (hproduct : (roll.toInt * k).natAbs ≤ 2 ^ 53) :
    (floorMul roll (.finite mantissa exponent)).toInt =
      ⌊((roll.toInt * k : Int) : ℚ) / 2 ^ j⌋ := by
  have hscaled : (mantissa : ℚ) * 2 ^ (exponent + j) = k := by
    rw [zpow_add₀ two_ne_zero, ← mul_assoc, hvalue, zpow_natCast]
    exact div_mul_cancel₀ _ (pow_ne_zero j two_ne_zero)
  have hfloor : ((roll.toInt * mantissa : Int) : ℚ) * 2 ^ exponent =
      ((roll.toInt * k : Int) : ℚ) / 2 ^ j := by
    push_cast
    rw [mul_assoc, hvalue, mul_div_assoc]
  have hquotient : (roll.toInt * k / (2 ^ j : Nat)).natAbs ≤ 2 ^ 53 :=
    (Int.natAbs_ediv_le_natAbs _ _).trans hproduct
  have hdiv : ⌊((roll.toInt * k : Int) : ℚ) / 2 ^ j⌋ = roll.toInt * k / (2 ^ j : Nat) := by
    exact_mod_cast Rat.floor_intCast_div_natCast (roll.toInt * k) (2 ^ j)
  rw [floorMul, roundInt_of_le hroll, roundInt_mul_mantissa hscaled hproduct,
    floorScaled_eq_floor, hfloor, hdiv]
  refine Int64.toInt_ofIntClamp ?_ ?_
  · rw [Int64.toInt_minValue]
    omega
  · rw [Int64.toInt_maxValue]
    omega

end Rounding
end Binary64

namespace Double
open Float.Model Float.Model.UnpackedFloat

theorem ofNat_eq_ofCanonical {n : Nat} (hn : 0 < n) (hlt : n < 2 ^ 53) :
    Float.ofNat n = ofCanonical .positive (canonical_natural hn hlt) := by
  have hone : Float.exactlyRepresentablePowersOfTen[0] = ofCanonical .positive canonical_one := rfl
  change Float.ofScientific n false 0 = _
  unfold Float.ofScientific
  rw [dif_pos ⟨hlt, by decide⟩]
  dsimp only
  rw [if_neg Bool.false_ne_true, toFloat_natural hn hlt, hone]
  refine mul_ofCanonical _ _ _ ?_ (by omega)
  rw [value_one, mul_one]

/-- Whether the double of a natural number is that number, with no fraction finer than its bits. -/
def Exact (n : Nat) : Prop :=
  ∃ m e, ∃ h : Canonical m e, Float.ofNat n = ofCanonical .positive h ∧ value m e = n ∧ -52 ≤ e

theorem exact_of_lt {n : Nat} (hn : 0 < n) (hlt : n < 2 ^ 53) : Exact n :=
  ⟨_, _, canonical_natural hn hlt, ofNat_eq_ofCanonical hn hlt,
    value_natural n ((Nat.log2_lt hn.ne').mpr hlt), by omega⟩

theorem exact_two_pow {j : Nat} (hj : j ≤ 1023) : Exact (2 ^ j) := by
  rcases Nat.lt_or_ge j 53 with hlt | hge
  · exact exact_of_lt (Nat.two_pow_pos j) (Nat.pow_lt_pow_right (by decide) hlt)
  · obtain ⟨places, rfl⟩ := Nat.exists_eq_add_of_le (Nat.le_of_succ_le hge)
    have h : Canonical (2 ^ 52) places := ⟨by decide, by decide, by omega, by omega, .inr le_rfl⟩
    have hread := ofScientific_integer h (by omega)
    rw [Int.toNat_natCast, Nat.shiftLeft_eq, ← Nat.pow_add] at hread
    refine ⟨2 ^ 52, places, h, hread, ?_, by omega⟩
    rw [value, zpow_natCast, Nat.pow_add]
    push_cast
    rfl

theorem zero_div_ofCanonical {m : Nat} {e : Int} (h : Canonical m e) :
    Float.ofNat 0 / ofCanonical .positive h = zero .positive := by
  change Float.ofModel (.pack (UnpackedFloat.div Format.binary64
    (Float.Model.pack (.zero .positive)).unpack (Float.Model.pack _).unpack)) = _
  rw [unpack_pack h]
  rfl

/-- A binary fraction of 53 bits is the quotient of the doubles of its parts. -/
theorem denotes_quotient {k j : Nat} (hk : k ≤ 2 ^ 53) (hj : j ≤ 1000) :
    Binary64.Denotes (Float.ofNat k / Float.ofNat (2 ^ j)) (k / 2 ^ j) := by
  obtain ⟨m₂, e₂, h₂, hpower, hvalue₂, -⟩ := exact_two_pow (by omega : j ≤ 1023)
  rw [hpower]
  rcases Nat.eq_zero_or_pos k with rfl | hpos
  · refine ⟨0, -1074, ?_, by simp⟩
    rw [zero_div_ofCanonical h₂, ofFloat_zero .positive]
  · have hexact : Exact k := by
      rcases Nat.lt_or_eq_of_le hk with hlt | rfl
      · exact exact_of_lt hpos hlt
      · exact exact_two_pow (by decide)
    obtain ⟨m, e, h, hdouble, hvalue, hleast⟩ := hexact
    have hlower : Canonical m (e - j) := by
      have hmost := h.most
      exact ⟨h.pos, h.lt, by omega, by omega, .inr (h.full.resolve_left (by omega))⟩
    have hquotient : value m (e - j) = k / 2 ^ j := by
      rw [← hvalue, value, value, zpow_sub₀ two_ne_zero, zpow_natCast, mul_div_assoc]
    refine ⟨m, e - j, ?_, hquotient⟩
    rw [hdouble, div_ofCanonical hlower h h₂, ofFloat_ofCanonical .positive hlower]
    · rfl
    · rw [hvalue, hvalue₂, hquotient]
      push_cast
      exact (mul_div_cancel₀ _ (pow_ne_zero j two_ne_zero)).symm

end Double

/-- A roll scaled by a binary fraction is divided exactly and rounded down. -/
theorem scaleRoll_exact {multiplier : Float} {k j : Nat}
    (hmultiplier : Binary64.Denotes multiplier (k / 2 ^ j)) {roll : Int64}
    (hroll : |roll.toInt| ≤ 2 ^ 53) (hproduct : |roll.toInt * k| ≤ 2 ^ 53) :
    (scaleRoll roll multiplier).toInt = ⌊((roll.toInt * k : Int) : ℚ) / 2 ^ j⌋ := by
  obtain ⟨mantissa, exponent, hfields, hvalue⟩ := hmultiplier
  rw [Int.abs_eq_natAbs] at hroll hproduct
  rw [scaleRoll, hfields]
  exact Binary64.floorMul_exact hvalue (by exact_mod_cast hroll) (by exact_mod_cast hproduct)

theorem denotes_one : Binary64.Denotes 1 ((1 : Nat) / 2 ^ 0) :=
  ⟨2 ^ 52, -52, by decide, by norm_num⟩

namespace Engagement
variable {engagement : Engagement}

theorem multiplier_eq_one (h : engagement.attacker.kind = .npc ∨
    (∃ cast, engagement.attack = .magic (.spell cast)) ∨ engagement.attack = .magic .innate) :
    engagement.multiplier = 1 := by
  obtain ⟨⟨kind, attributes⟩, defender, attack⟩ := engagement
  rcases h with hnpc | ⟨cast, hspell⟩ | hinnate
  · obtain rfl : kind = .npc := hnpc
    rfl
  · obtain rfl : attack = .magic (.spell cast) := hspell
    cases kind <;> rfl
  · obtain rfl : attack = .magic .innate := hinnate
    cases kind <;> rfl

theorem attack_unscaled (evaluator : Evaluator) (hmultiplier : engagement.multiplier = 1)
    (hsize : |engagement.offenceLevel.toInt * (engagement.offenceBonus.toInt + 64)| ≤ 2 ^ 53) :
    (evaluator.rolls engagement).attack.toInt =
      engagement.offenceLevel.toInt * (engagement.offenceBonus.toInt + 64) := by
  have hbase := toInt_baseRoll engagement.offenceLevel engagement.offenceBonus
  rw [← hbase] at hsize
  have hscaled := scaleRoll_exact denotes_one hsize (by simpa using hsize)
  rw [Nat.cast_one, mul_one, pow_zero, div_one, Int.floor_intCast] at hscaled
  rw [attack_rolls, attackRoll, hmultiplier, hscaled, hbase]

end Engagement

/-- The quotient of a numerator of 53 bits and a power of two is a double of that value, and a
multiplier of that value takes the exact product of a roll and the numerator over the power of two
and rounds it down, whenever the roll and that product have 53 bits too. So the multiplier one,
which is that of every NPC, spell and innate magic, leaves such a roll as it is. -/
theorem binary_fractions_scale_exactly :
    (∀ k j : Nat, k ≤ 2 ^ 53 → j ≤ 1000 →
      Binary64.Denotes (Float.ofNat k / Float.ofNat (2 ^ j)) (k / 2 ^ j) ∧
      ∀ multiplier, Binary64.Denotes multiplier (k / 2 ^ j) → ∀ roll : Int64,
        |roll.toInt| ≤ 2 ^ 53 → |roll.toInt * k| ≤ 2 ^ 53 →
          (scaleRoll roll multiplier).toInt = ⌊((roll.toInt * k : Int) : ℚ) / 2 ^ j⌋) ∧
    ∀ engagement : Engagement,
      (engagement.attacker.kind = .npc ∨ (∃ cast, engagement.attack = .magic (.spell cast)) ∨
        engagement.attack = .magic .innate → engagement.multiplier = 1) ∧
      ∀ evaluator : Evaluator, engagement.multiplier = 1 →
        |engagement.offenceLevel.toInt * (engagement.offenceBonus.toInt + 64)| ≤ 2 ^ 53 →
          (evaluator.rolls engagement).attack.toInt =
            engagement.offenceLevel.toInt * (engagement.offenceBonus.toInt + 64) := by
  constructor
  · intro k j hk hj
    refine ⟨Double.denotes_quotient hk hj, ?_⟩
    intro multiplier hmultiplier roll hroll hproduct
    exact scaleRoll_exact hmultiplier hroll hproduct
  · intro engagement
    refine ⟨Engagement.multiplier_eq_one, ?_⟩
    intro evaluator hmultiplier hsize
    exact Engagement.attack_unscaled evaluator hmultiplier hsize

/-- The least level, with the greatest bonus that keeps its roll within 53 bits. -/
def brute : Attributes where
  meleeLevel _ := Int32.minValue
  rangedLevel _ := 0
  magicLevel _ := 0
  defenceLevel _ := 0
  offenceBonus _ := 4194240
  stance := .unarmed

/-- A blow that would have a multiplier if it were a player's. -/
def bruteBlow : Engagement where
  attacker := ⟨.npc, brute⟩
  defender := ⟨.player, brute⟩
  attack := .melee { multiplier := 1.25 }

theorem binary_fractions_scale_exactly_at_limit :
    let evaluator : Evaluator := ⟨⟨0, fun _ _ => .magic⟩⟩
    (Binary64.Denotes 1.25 ((5 : Nat) / 2 ^ 2) ∧ (scaleRoll (-1001) 1.25).toInt = -1252) ∧
    (bruteBlow.attacker.kind = .npc ∧ bruteBlow.multiplier = 1) ∧
    |bruteBlow.offenceLevel.toInt * (bruteBlow.offenceBonus.toInt + 64)| = 2 ^ 53 ∧
    (evaluator.rolls bruteBlow).attack.toInt = -2 ^ 53 := by
  intro evaluator
  have hdenotes : Binary64.Denotes 1.25 ((5 : Nat) / 2 ^ 2) :=
    ⟨5 * 2 ^ 50, -52, by decide, by norm_num⟩
  have hscaled := (binary_fractions_scale_exactly.1 5 2 (by decide) (by decide)).2 1.25 hdenotes
    (-1001) (by decide) (by decide)
  have hfloor : ⌊((Int64.toInt (-1001) * (5 : Nat) : Int) : ℚ) / 2 ^ 2⌋ = -1252 := by
    have hroll : Int64.toInt (-1001) = -1001 := rfl
    rw [hroll, Int.floor_eq_iff]
    norm_num
  have hone := (binary_fractions_scale_exactly.2 bruteBlow).1 (.inl rfl)
  have hroll := (binary_fractions_scale_exactly.2 bruteBlow).2 evaluator hone (by decide)
  exact ⟨⟨hdenotes, hscaled.trans hfloor⟩, ⟨rfl, hone⟩, by decide, hroll.trans (by decide)⟩

/-- One bit more and even the multiplier one rounds. -/
example : scaleRoll 9007199254740993 1 = 9007199254740992 := by
  decide

end CombatAccuracy
