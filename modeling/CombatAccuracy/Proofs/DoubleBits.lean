import CombatAccuracy.Binary64
import CombatAccuracy.Proofs.Doubles
/-!
# Doubles by their bits

What a double is packed from is unpacked again (`unpack_pack`), and is what its bits tell
(`ofFloat_ofCanonical`). Natural numbers of 53 bits are converted exactly (`toFloat_natural`), and
so are their multiples by powers of two (`ofScientific_integer`).
-/
namespace CombatAccuracy.Double
open Float.Model Float.Model.UnpackedFloat

section Packing
variable {m : Nat} {e : Int}

theorem toNat_implicit (fraction : BitVec 52) :
    (1#1 ++ fraction).toNat = 2 ^ 52 + fraction.toNat := by
  rw [BitVec.toNat_append, ← Nat.shiftLeft_add_eq_or_of_lt fraction.isLt]
  rfl

theorem unpack_normal (s : Sign) {biased : BitVec 11} (fraction : BitVec 52) (h0 : biased ≠ 0#11)
    (h1 : biased ≠ -1#11) :
    UnpackedFloat.unpack Format.binary64 (packComponents Format.binary64 s biased fraction) =
      .finite s (2 ^ 52 + fraction.toNat) (biased.toNat - 1075) (by omega) := by
  simp only [UnpackedFloat.unpack, unpackMantissa_packComponents, unpackExponent_packComponents,
    unpackSign_packComponents, Sign.ofBitVec_toBitVec, toNat_implicit]
  rw [if_neg h1, if_neg h0]
  rfl

theorem unpack_subnormal (s : Sign) {fraction : BitVec 52} (h0 : 0 < fraction.toNat) :
    UnpackedFloat.unpack Format.binary64 (packComponents Format.binary64 s 0#11 fraction) =
      .finite s fraction.toNat (-1074) h0 := by
  have hne : fraction ≠ 0#52 := by
    rintro rfl
    exact absurd h0 (by decide)
  simp only [UnpackedFloat.unpack, unpackMantissa_packComponents, unpackExponent_packComponents,
    unpackSign_packComponents, Sign.ofBitVec_toBitVec]
  rw [if_neg (by decide), if_pos trivial, dif_neg hne]
  rfl

theorem toNat_biased {biased : BitVec 11} (h0 : biased ≠ 0#11) (h1 : biased ≠ -1#11) :
    0 < biased.toNat ∧ biased.toNat < 2047 := by
  have hlt := biased.isLt
  have hzero : biased.toNat ≠ 0 := fun h => h0 (BitVec.eq_of_toNat_eq h)
  have hones : biased.toNat ≠ 2047 := fun h => h1 (BitVec.eq_of_toNat_eq h)
  omega

theorem pack_normal (s : Sign) {biased : BitVec 11} (fraction : BitVec 52) (h0 : biased ≠ 0#11)
    (h1 : biased ≠ -1#11) :
    UnpackedFloat.pack Format.binary64
        (.finite s (2 ^ 52 + fraction.toNat) (biased.toNat - 1075) (by omega)) =
      packComponents Format.binary64 s biased fraction := by
  have hrange := toNat_biased h0 h1
  have hfraction := fraction.isLt
  have hlog : (2 ^ 52 + fraction.toNat).log2 = 52 :=
    (Nat.log2_eq_iff (by omega)).mpr (by omega)
  have hbiased : ((biased.toNat : Int) - 1075 + Format.binary64.exponentBias +
      Format.binary64.mantissaBitsWithoutImplicit).toNat = biased.toNat := by
    have hbias : Format.binary64.exponentBias = 1023 := rfl
    have hwidth : Format.binary64.mantissaBitsWithoutImplicit = 52 := rfl
    omega
  have hmantissa : BitVec.ofNat 52 (2 ^ 52 + fraction.toNat) = fraction := by
    refine BitVec.eq_of_toNat_eq ?_
    rw [BitVec.toNat_ofNat]
    omega
  have hbits : Format.binary64.mantissaBits = 52 + 1 := rfl
  simp only [UnpackedFloat.pack, hbiased, hlog]
  rw [if_neg (by omega), if_pos hbits.symm, hmantissa, BitVec.ofNat_toNat, BitVec.setWidth_eq]

theorem pack_subnormal (s : Sign) {fraction : BitVec 52} (h0 : 0 < fraction.toNat) :
    UnpackedFloat.pack Format.binary64 (.finite s fraction.toNat (-1074) h0) =
      packComponents Format.binary64 s 0#11 fraction := by
  have hlog : fraction.toNat.log2 < 52 := (Nat.log2_lt h0.ne').mpr fraction.isLt
  have hbits : Format.binary64.mantissaBits = 53 := rfl
  simp only [UnpackedFloat.pack]
  rw [if_neg (by decide), if_neg (by omega), BitVec.ofNat_toNat, BitVec.setWidth_eq]

theorem Canonical.normal_or_subnormal (h : Canonical m e) :
    (∃ (biased : BitVec 11) (fraction : BitVec 52), biased ≠ 0#11 ∧ biased ≠ -1#11 ∧
      m = 2 ^ 52 + fraction.toNat ∧ e = biased.toNat - 1075) ∨
    ∃ fraction : BitVec 52, m = fraction.toNat ∧ e = -1074 := by
  have hlt := h.lt
  have hleast := h.least
  have hmost := h.most
  by_cases hnormal : 2 ^ 52 ≤ m
  · have hfraction : (BitVec.ofNat 52 (m - 2 ^ 52)).toNat = m - 2 ^ 52 := by
      rw [BitVec.toNat_ofNat]
      omega
    have hbiased : (BitVec.ofNat 11 (e + 1075).toNat).toNat = (e + 1075).toNat := by
      rw [BitVec.toNat_ofNat]
      omega
    refine .inl ⟨.ofNat 11 (e + 1075).toNat, .ofNat 52 (m - 2 ^ 52), ?_, ?_, ?_, ?_⟩
    · intro hzero
      rw [hzero] at hbiased
      change 0 = _ at hbiased
      omega
    · intro hones
      rw [hones] at hbiased
      change 2047 = _ at hbiased
      omega
    · rw [hfraction]
      omega
    · rw [hbiased]
      omega
  · refine .inr ⟨.ofNat 52 m, ?_, h.full.resolve_right hnormal⟩
    rw [BitVec.toNat_ofNat]
    omega

/-- A double is unpacked as what it was packed from. -/
theorem unpack_pack (h : Canonical m e) (s : Sign) :
    (Float.Model.pack (.finite s m e h.pos)).unpack = .finite s m e h.pos := by
  change UnpackedFloat.unpack Format.binary64
    (UnpackedFloat.pack Format.binary64 (.finite s m e h.pos)) = _
  rcases h.normal_or_subnormal with ⟨biased, fraction, h0, h1, rfl, rfl⟩ | ⟨fraction, rfl, rfl⟩
  · rw [pack_normal s fraction h0 h1, unpack_normal s fraction h0 h1]
  · rw [pack_subnormal s h.pos, unpack_subnormal s h.pos]

theorem toNat_packComponents (s : Sign) (biased : BitVec 11) (fraction : BitVec 52) :
    (packComponents Format.binary64 s biased fraction).toNat =
      (s.toBitVec.toNat * 2 ^ 11 + biased.toNat) * 2 ^ 52 + fraction.toNat := by
  change (s.toBitVec ++ biased ++ fraction).toNat = _
  rw [BitVec.toNat_append, ← Nat.shiftLeft_add_eq_or_of_lt fraction.isLt, BitVec.toNat_append,
    ← Nat.shiftLeft_add_eq_or_of_lt biased.isLt, Nat.shiftLeft_eq, Nat.shiftLeft_eq]

end Packing

/-- The double with this sign, mantissa and exponent. -/
def ofCanonical {m : Nat} {e : Int} (s : Sign) (h : Canonical m e) : Float :=
  .ofModel (.pack (.finite s m e h.pos))

def zero (s : Sign) : Float :=
  .ofModel (.pack (.zero s))

section Bits
variable {m : Nat} {e : Int}

/-- Whether a sign is a minus. -/
def isMinus : Sign → Bool
  | .negative => true
  | .positive => false

theorem ofFloat_eq {x : Float} {s : Sign} {biased : BitVec 11} {fraction : BitVec 52}
    (h : x.toBits.toBitVec = packComponents Format.binary64 s biased fraction) :
    Binary64.ofFloat x = .ofFields (isMinus s) biased.toNat fraction.toNat := by
  have hbiased := biased.isLt
  have hfraction := fraction.isLt
  have hbits : x.toBits.toNat = _ := (congrArg BitVec.toNat h).trans (toNat_packComponents ..)
  have hsign : x.toBits.toNat.testBit 63 = isMinus s := by
    rw [hbits, Nat.testBit_eq_decide_div_mod_eq]
    cases s with
    | negative =>
      have hone : (Sign.toBitVec .negative).toNat = 1 := rfl
      rw [hone]
      exact decide_eq_true (by omega)
    | positive =>
      have hzero : (Sign.toBitVec .positive).toNat = 0 := rfl
      rw [hzero]
      exact decide_eq_false (by omega)
  have hexponent : (x.toBits.toNat >>> 52) % 2048 = biased.toNat := by
    rw [hbits, Nat.shiftRight_eq_div_pow]
    omega
  have hrest : x.toBits.toNat % (1 <<< 52) = fraction.toNat := by
    have hwidth : 1 <<< 52 = 2 ^ 52 := rfl
    rw [hbits, hwidth]
    omega
  rw [Binary64.ofFloat, hsign, hexponent, hrest]

theorem ofFloat_ofCanonical (s : Sign) (h : Canonical m e) :
    Binary64.ofFloat (ofCanonical s h) = .finite (if isMinus s then -(m : Int) else m) e := by
  rcases h.normal_or_subnormal with ⟨biased, fraction, h0, h1, rfl, rfl⟩ | ⟨fraction, rfl, rfl⟩
  · have hrange := toNat_biased h0 h1
    have hzero : biased.toNat ≠ 0 := by omega
    have hones : biased.toNat ≠ 2047 := by omega
    rw [ofFloat_eq (x := ofCanonical s h) (pack_normal s fraction h0 h1)]
    simp only [Binary64.ofFields, if_neg hzero, if_neg hones]
    rfl
  · rw [ofFloat_eq (x := ofCanonical s h) (pack_subnormal s h.pos)]
    rfl

theorem ofFloat_zero (s : Sign) : Binary64.ofFloat (zero s) = .finite 0 (-1074) := by
  cases s <;> decide

end Bits

section Reading
variable {m : Nat} {e : Int}

section Arithmetic
variable {m₁ m₂ : Nat} {e₁ e₂ : Int}

theorem mul_ofCanonical (h : Canonical m e) (h₁ : Canonical m₁ e₁) (h₂ : Canonical m₂ e₂)
    (hvalue : value m₁ e₁ * value m₂ e₂ = value m e) (he : e₁ + e₂ ≤ e) :
    ofCanonical .positive h₁ * ofCanonical .positive h₂ = ofCanonical .positive h := by
  change Float.ofModel (.pack (UnpackedFloat.mul Format.binary64
    (Float.Model.pack _).unpack (Float.Model.pack _).unpack)) = _
  rw [unpack_pack h₁, unpack_pack h₂, mul_exact h h₁.pos h₂.pos hvalue he]
  rfl

theorem div_ofCanonical (h : Canonical m e) (h₁ : Canonical m₁ e₁) (h₂ : Canonical m₂ e₂)
    (hvalue : value m₁ e₁ = value m₂ e₂ * value m e) :
    ofCanonical .positive h₁ / ofCanonical .positive h₂ = ofCanonical .positive h := by
  change Float.ofModel (.pack (UnpackedFloat.div Format.binary64
    (Float.Model.pack _).unpack (Float.Model.pack _).unpack)) = _
  rw [unpack_pack h₁, unpack_pack h₂, div_exact h h₁.pos h₂.pos hvalue]
  rfl

end Arithmetic

theorem value_zero (n : Nat) : value n 0 = n := by
  rw [value, zpow_zero, mul_one]

theorem canonical_one : Canonical (2 ^ 52) (-52) :=
  ⟨by decide, by decide, by decide, by decide, .inr le_rfl⟩

theorem value_one : value (2 ^ 52) (-52) = 1 := by
  have hshift := value_shiftLeft 1 52 0
  rw [value_zero, Nat.cast_one] at hshift
  exact hshift

theorem canonical_natural {n : Nat} (hn : 0 < n) (hlt : n < 2 ^ 53) :
    Canonical (n <<< (52 - n.log2)) (n.log2 - 52) := by
  have hlog := (Nat.log2_lt hn.ne').mpr hlt
  have hshift := log2_shiftLeft hn (52 - n.log2)
  have hpos : 0 < n <<< (52 - n.log2) := by
    rw [Nat.shiftLeft_eq]
    exact Nat.mul_pos hn (Nat.two_pow_pos _)
  have hrange := (Nat.log2_eq_iff hpos.ne').mp (hshift.trans (by omega : _ = 52))
  exact ⟨hpos, hrange.2, by omega, by omega, .inr hrange.1⟩

theorem value_natural (n : Nat) (hlog : n.log2 < 53) :
    value (n <<< (52 - n.log2)) (n.log2 - 52) = n := by
  have hshift := value_shiftLeft n (52 - n.log2) 0
  rw [value_zero] at hshift
  rw [← hshift]
  congr 1
  omega

theorem toFloat_natural {n : Nat} (hn : 0 < n) (hlt : n < 2 ^ 53) :
    n.toUInt64.toFloat = ofCanonical .positive (canonical_natural hn hlt) := by
  have hword : n.toUInt64.toNat = n :=
    UInt64.toNat_ofNat_of_lt' (hlt.trans (by decide : 2 ^ 53 < UInt64.size))
  have hround : UnpackedFloat.ofNat Format.binary64 n =
      .finite .positive (n <<< (52 - n.log2)) (n.log2 - 52) (canonical_natural hn hlt).pos := by
    have hlog := (Nat.log2_lt hn.ne').mpr hlt
    have hsign : compare (n : Int) 0 = .gt := Int.compare_eq_gt.mpr (by omega)
    have htarget : Format.binary64.targetExponent (totalExponent n 0) = n.log2 - 52 := by
      rw [targetExponent_eq, totalExponent]
      omega
    have hplaces : (0 - ((n.log2 : Int) - 52)).toNat = 52 - n.log2 := by omega
    have hexponent : 0 - ((52 - n.log2 : Nat) : Int) = n.log2 - 52 := by omega
    have hround := roundWithAccuracy_shiftLeft (canonical_natural hn hlt) .positive 0
    rw [Nat.shiftLeft_zero, Int.natCast_zero, Int.sub_zero] at hround
    rw [UnpackedFloat.ofNat, UnpackedFloat.ofInt, UnpackedFloat.normalize, hsign]
    simp only [UnpackedFloat.round, Int.toNat_natCast, htarget, decreaseExponent, hplaces,
      hexponent, hround]
  change Float.ofModel (.pack (UnpackedFloat.ofNat Format.binary64 n.toUInt64.toNat)) = _
  rw [hword, hround]
  rfl

theorem unpacked_integer (h : Canonical m e) (he : 0 ≤ e) :
    UnpackedFloat.ofScientific Format.binary64 (m <<< e.toNat) 0 =
      .finite .positive m e h.pos := by
  have hpos : 0 < m <<< e.toNat := by
    rw [Nat.shiftLeft_eq]
    exact Nat.mul_pos h.pos (Nat.two_pow_pos _)
  have hlimit : (2 : Int) ^ Format.binary64.exponentBits = 2048 := rfl
  have hvalue := value_shiftLeft m e.toNat e
  rw [Int.toNat_of_nonneg he, Int.sub_self] at hvalue
  have hlifted := value_shiftLeft (m <<< e.toNat) Format.binary64.mantissaBits 0
  rw [Int.zero_sub, hvalue] at hlifted
  unfold UnpackedFloat.ofScientific
  simp only [hlimit]
  rw [dif_neg hpos.ne', if_neg (by omega), if_neg (by omega), if_pos le_rfl]
  refine mul_exact h _ _ ?_ ?_
  · rw [hlifted, Int.toNat_zero, Nat.pow_zero, value_zero, Nat.cast_one, mul_one]
  · omega

/-- A double above the fractions is read from its digits. -/
theorem ofScientific_integer (h : Canonical m e) (he : 0 ≤ e) :
    Float.ofScientific (m <<< e.toNat) false 0 = ofCanonical .positive h := by
  have hpos : 0 < m <<< e.toNat := by
    rw [Nat.shiftLeft_eq]
    exact Nat.mul_pos h.pos (Nat.two_pow_pos _)
  unfold Float.ofScientific
  split
  · next hsmall =>
    have hone : Float.exactlyRepresentablePowersOfTen[0] =
        ofCanonical .positive canonical_one := rfl
    have hvalue := value_shiftLeft m e.toNat e
    have hlog := (Nat.log2_lt hpos.ne').mpr hsmall.1
    rw [Int.toNat_of_nonneg he, Int.sub_self, value_zero] at hvalue
    dsimp only
    rw [if_neg Bool.false_ne_true, toFloat_natural hpos hsmall.1, hone]
    refine mul_ofCanonical h _ _ ?_ (by omega)
    rw [value_natural _ hlog, hvalue, value_one, mul_one]
  · rw [if_neg Bool.false_ne_true]
    exact congrArg (fun u => Float.ofModel (.pack u)) (unpacked_integer h he)

end Reading
end CombatAccuracy.Double
