import CombatAccuracy.Proofs.ConfigLoading
/-!
# Spells as keys

A spell's key is read as a number literal that must be used up and fit 32 bits. What passes is just
the number in canonical decimal (`SpellId.ofKey?_isSome_iff`), so a key is the text of the spell
that it gives (`SpellId.ofKey?_eq_some_iff`), and no spell has two keys.
-/
namespace CombatAccuracy

namespace Json

theorem uint32?_eq_some {json : Json} {n : UInt32} (h : json.uint32? = some n) :
    json = .int n.toNat := by
  cases json with
  | int m =>
    rw [uint32?] at h
    split at h
    · next hrange =>
      obtain rfl := Option.some.inj h
      rw [UInt32.toNat_ofNat_of_lt' (by omega), Int.toNat_of_nonneg hrange.1]
    · cases h
  | _ => cases h

end Json

namespace SpellId
variable {text : String} {spell : SpellId}

theorem toList_text (spell : SpellId) :
    spell.text.toList = Nat.toDigits 10 spell.number.toNat := by
  rw [SpellId.text, Nat.toString_eq_ofList_toDigits, String.toList_ofList]

theorem canonical_of_ofKey? (h : ofKey? (.plain text) = some spell) :
    Json.CanonicalDecimal text.toList ∧ Json.digitsValue text.toList = spell.number.toNat := by
  simp only [ofKey?] at h
  split at h
  · next json hnumber =>
    obtain ⟨number, hword, rfl⟩ := Option.map_eq_some_iff.mp h
    rw [Json.uint32?_eq_some hword] at hnumber
    obtain ⟨hcanonical, hvalue⟩ := Json.number?_eq_int hnumber (Int.natCast_nonneg _)
    exact ⟨hcanonical, (Int.ofNat.inj hvalue).symm⟩
  · cases h

/-- The one key of a spell is its number in decimal, written without escapes. -/
theorem ofKey?_eq_some_iff {key : Key} : ofKey? key = some spell ↔ key = .plain spell.text := by
  constructor
  · intro h
    cases key with
    | plain text =>
      obtain ⟨hcanonical, hvalue⟩ := canonical_of_ofKey? h
      have htext : text = spell.text := by
        rw [← String.toList_inj, toList_text, ← hvalue, Json.toDigits_digitsValue hcanonical]
      rw [htext]
    | escaped text | unreadable => nomatch h
  · rintro rfl
    exact ofKey?_text spell

/-- A number of 32 bits in canonical decimal. -/
def IsKey (text : String) : Prop :=
  Json.CanonicalDecimal text.toList ∧ Json.digitsValue text.toList < 2 ^ 32

theorem ofKey?_isSome_iff : (ofKey? (.plain text)).isSome ↔ IsKey text := by
  rw [Option.isSome_iff_exists]
  constructor
  · rintro ⟨spell, h⟩
    obtain ⟨hcanonical, hvalue⟩ := canonical_of_ofKey? h
    rw [IsKey, hvalue]
    exact ⟨hcanonical, spell.number.toNat_lt_size⟩
  · rintro ⟨hcanonical, hlt⟩
    have hword : (UInt32.ofNat (Json.digitsValue text.toList)).toNat =
        Json.digitsValue text.toList := UInt32.toNat_ofNat_of_lt' hlt
    refine ⟨⟨.ofNat (Json.digitsValue text.toList)⟩, ?_⟩
    rw [ofKey?_eq_some_iff, Key.plain.injEq, ← String.toList_inj, toList_text,
      hword, Json.toDigits_digitsValue hcanonical]

theorem ofKey?_keyOfText_isSome_iff : (ofKey? (Json.keyOfText text)).isSome ↔ IsKey text := by
  by_cases hplain : text.toList.all Json.isPlain = true
  · rw [Json.keyOfText, if_pos hplain]
    exact ofKey?_isSome_iff
  · rw [Json.keyOfText, if_neg hplain]
    constructor
    · intro h
      cases h
    · intro h
      refine absurd (List.all_eq_true.mpr ?_) hplain
      intro c hc
      exact Json.isPlain_of_isDigit (h.1.digits c hc)

end SpellId
end CombatAccuracy
