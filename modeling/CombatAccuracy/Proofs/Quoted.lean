import CombatAccuracy.Json.Printer
/-!
# Strings read back

A string between quotes is read back as what was written, whatever text follows
(`pieces?_flatMap`). Of a quoted text it is also told whether it needed an escape, since that is
what a key keeps (`keyOfPieces_map_ofChar`).
-/
namespace CombatAccuracy.Json

/-- Whether a character stands between quotes as it is. -/
def isPlain (c : Char) : Bool :=
  c ≠ '"' && c ≠ '\\' && 32 ≤ c.toNat

theorem isPlain_of_isDigit {c : Char} (h : c.isDigit = true) : isPlain c = true := by
  simp only [Char.isDigit, Bool.and_eq_true, decide_eq_true_eq] at h
  have hlow : 48 ≤ c.toNat := h.1
  have hhigh : c.toNat ≤ 57 := h.2
  simp only [isPlain, Bool.and_eq_true, decide_eq_true_eq, ne_eq]
  refine ⟨⟨?_, ?_⟩, by omega⟩
  · rintro rfl
    exact absurd hlow (by decide)
  · rintro rfl
    exact absurd hhigh (by decide)

/-- The piece that a character is written as. -/
def Piece.ofChar (c : Char) : Piece :=
  match escapeLetter? c with
  | some _ => .escaped c
  | none => if c.toNat < 32 then .unit c.toNat else .literal c

theorem escapeLetter?_eq_some {c letter : Char} (h : escapeLetter? c = some letter) :
    shortEscape? letter = some c ∧ isPlain c = false := by
  unfold escapeLetter? at h
  split at h
  · next hself =>
    obtain rfl := Option.some.inj h
    rcases hself with rfl | rfl <;> exact ⟨rfl, rfl⟩
  · repeat' split at h
    all_goals cases h
    all_goals
      subst c
      exact ⟨rfl, rfl⟩

theorem isPlain_of_escapeLetter?_eq_none {c : Char} (h : escapeLetter? c = none)
    (hcontrol : ¬c.toNat < 32) : isPlain c = true := by
  have hself : ¬(c = '"' ∨ c = '\\') := by
    intro hc
    rw [escapeLetter?, if_pos hc] at h
    cases h
  rw [not_or] at hself
  simpa [isPlain, hself] using hcontrol

/-- A character is written with the letter of its escape, as a unit, or as it is. -/
theorem quoteChar_cases (c : Char) :
    (∃ letter, escapeLetter? c = some letter ∧ quoteChar c = ['\\', letter] ∧
      Piece.ofChar c = .escaped c) ∨
    (c.toNat < 32 ∧ Piece.ofChar c = .unit c.toNat ∧
      quoteChar c = ['\\', 'u', '0', '0', hexDigit (c.toNat / 16), hexDigit (c.toNat % 16)]) ∨
    (isPlain c = true ∧ quoteChar c = [c] ∧ Piece.ofChar c = .literal c) := by
  unfold quoteChar Piece.ofChar
  cases hescape : escapeLetter? c with
  | some letter => exact .inl ⟨letter, rfl, rfl, rfl⟩
  | none =>
    by_cases hcontrol : c.toNat < 32
    · exact .inr (.inl ⟨hcontrol, if_pos hcontrol, if_pos hcontrol⟩)
    · have hplain := isPlain_of_escapeLetter?_eq_none hescape hcontrol
      exact .inr (.inr ⟨hplain, if_neg hcontrol, if_neg hcontrol⟩)

theorem hexValue?_hexDigit {n : Nat} (h : n < 16) : hexValue? (hexDigit n) = some n := by
  have hall : ∀ m < 16, hexValue? (hexDigit m) = some m := by decide
  exact hall n h

theorem pieces?_escape {c letter : Char} (h : escapeLetter? c = some letter) (rest : List Char) :
    pieces? ('\\' :: letter :: rest) =
      (pieces? rest).map fun read => (.escaped c :: read.1, read.2) := by
  have hshort := (escapeLetter?_eq_some h).1
  rw [pieces?]
  · rw [hshort]
    cases pieces? rest <;> rfl
  · rintro _ _ _ _ _ rfl
    cases hshort

theorem pieces?_unit {n : Nat} (hn : n < 32) (rest : List Char) :
    pieces? ('\\' :: 'u' :: '0' :: '0' :: hexDigit (n / 16) :: hexDigit (n % 16) :: rest) =
      (pieces? rest).map fun read => (.unit n :: read.1, read.2) := by
  have hunit : unitOf? '0' '0' (hexDigit (n / 16)) (hexDigit (n % 16)) = some n := by
    have hzero : hexValue? '0' = some 0 := by decide
    have hhigh : hexValue? (hexDigit (n / 16)) = some (n / 16) := hexValue?_hexDigit (by omega)
    have hlow : hexValue? (hexDigit (n % 16)) = some (n % 16) := hexValue?_hexDigit (by omega)
    have hvalue : ((0 * 16 + 0) * 16 + n / 16) * 16 + n % 16 = n := by omega
    simp only [unitOf?, hzero, hhigh, hlow, Option.bind_eq_bind, Option.bind_some, hvalue]
  rw [pieces?, hunit]
  cases pieces? rest <;> rfl

theorem pieces?_literal {c : Char} (hc : isPlain c = true) (rest : List Char) :
    pieces? (c :: rest) = (pieces? rest).map fun read => (.literal c :: read.1, read.2) := by
  simp only [isPlain, Bool.and_eq_true, decide_eq_true_eq, ne_eq] at hc
  rw [pieces?]
  · rw [if_neg (by omega)]
    cases pieces? rest <;> rfl
  · exact hc.1.1
  · intro _ _ _ _ _ heq
    exact absurd heq hc.1.2
  · intro _ _ heq
    exact absurd heq hc.1.2

theorem pieces?_quoteChar (c : Char) (rest : List Char) :
    pieces? (quoteChar c ++ rest) =
      (pieces? rest).map fun read => (Piece.ofChar c :: read.1, read.2) := by
  rcases quoteChar_cases c with ⟨letter, hc, hchar, hpiece⟩ | ⟨hc, hpiece, hchar⟩ |
    ⟨hc, hchar, hpiece⟩
  · rw [hchar, hpiece]
    exact pieces?_escape hc rest
  · rw [hchar, hpiece]
    exact pieces?_unit hc rest
  · rw [hchar, hpiece]
    exact pieces?_literal hc rest

/-- The pieces of a quoted text are those of its characters. -/
theorem pieces?_flatMap (cs rest : List Char) :
    pieces? (cs.flatMap quoteChar ++ '"' :: rest) = some (cs.map Piece.ofChar, rest) := by
  induction cs with
  | nil => rfl
  | cons c cs ih =>
    rw [List.flatMap_cons, List.append_assoc, pieces?_quoteChar, ih]
    rfl

theorem spell?_unit {n : Nat} (hn : n < 32) (pieces : List Piece) :
    spell? (.unit n :: pieces) = (spell? pieces).map (Char.ofNat n :: ·) := by
  have hleading : isLeading n = false := by
    simp only [isLeading, Bool.and_eq_false_iff, decide_eq_false_iff_not]
    omega
  have htrailing : isTrailing n = false := by
    simp only [isTrailing, Bool.and_eq_false_iff, decide_eq_false_iff_not]
    omega
  cases pieces with
  | nil => simp [spell?, hleading, htrailing]
  | cons piece pieces => cases piece <;> simp [spell?, hleading, htrailing]

theorem spell?_map_ofChar (cs : List Char) : spell? (cs.map Piece.ofChar) = some cs := by
  induction cs with
  | nil => rfl
  | cons c cs ih =>
    rw [List.map_cons]
    rcases quoteChar_cases c with ⟨_, -, -, hpiece⟩ | ⟨hc, hpiece, -⟩ | ⟨-, -, hpiece⟩
    · rw [hpiece, spell?, ih]
      rfl
    · rw [hpiece, spell?_unit hc, ih, Option.map_some, Char.ofNat_toNat]
    · rw [hpiece, spell?, ih]
      rfl

theorem all_isLiteral_map_ofChar (cs : List Char) :
    (cs.map Piece.ofChar).all Piece.isLiteral = cs.all isPlain := by
  induction cs with
  | nil => rfl
  | cons c cs ih =>
    have hfirst : (Piece.ofChar c).isLiteral = isPlain c := by
      rcases quoteChar_cases c with ⟨_, hc, -, hpiece⟩ | ⟨hc, hpiece, -⟩ | ⟨hc, -, hpiece⟩
      · rw [hpiece, (escapeLetter?_eq_some hc).2]
        rfl
      · rw [hpiece]
        simp [Piece.isLiteral, isPlain]
        omega
      · rw [hpiece, hc]
        rfl
    rw [List.map_cons, List.all_cons, List.all_cons, ih, hfirst]

/-- The key that a text gives when it is written out and read back. -/
def keyOfText (text : String) : Key :=
  if text.toList.all isPlain then .plain text else .escaped text

theorem ofPieces_map_ofChar (text : String) :
    ofPieces (text.toList.map Piece.ofChar) = .string text := by
  rw [ofPieces, spell?_map_ofChar]
  exact congrArg Json.string String.ofList_toList

theorem keyOfPieces_map_ofChar (text : String) :
    keyOfPieces (text.toList.map Piece.ofChar) = keyOfText text := by
  simp only [keyOfPieces, spell?_map_ofChar, all_isLiteral_map_ofChar, String.ofList_toList,
    keyOfText]

end CombatAccuracy.Json
