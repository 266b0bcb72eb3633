import CombatAccuracy.Json.Parser
import CombatAccuracy.Json.Printer
import Mathlib.Data.List.Induction
import Mathlib.Data.List.TakeDrop
/-!
# Numbers read back

A number that is read off the front of a text is also read when other text follows that does not go
on with it (`number?_append`). An integer that fits 64 bits is read back from its decimal
(`number?_integerText`), and an integer that is not negative is read from nothing but its canonical
decimal (`number?_eq_int`).
-/
namespace CombatAccuracy.Json

/-- Whether a text goes on with no number before it. -/
def endsNumber : List Char → Bool
  | [] => true
  | c :: _ => !(c.isDigit || c = '.' || c = 'e' || c = 'E')

/-- Whether a text goes on with no digit. -/
def endsDigits : List Char → Bool
  | [] => true
  | c :: _ => !c.isDigit

/-- A number in canonical decimal: digits, of which the first is no zero unless it is alone. -/
structure CanonicalDecimal (cs : List Char) : Prop where
  ne_nil : cs ≠ []
  digits : ∀ c ∈ cs, c.isDigit = true
  leading : cs.head? = some '0' → cs = ['0']

section Digits

theorem toDigits_ne_zero_cons {n : Nat} (hn : n ≠ 0) (cs : List Char) :
    Nat.toDigits 10 n ≠ '0' :: cs := by
  induction n using Nat.strongRecOn generalizing cs with
  | ind n ih =>
    intro h
    by_cases hlt : n < 10
    · rw [Nat.toDigits_of_lt_base hlt] at h
      have hzero : ∀ m < 10, m.digitChar = '0' → m = 0 := by decide
      exact hn (hzero n hlt (List.cons.inj h).1)
    · rw [Nat.toDigits_of_base_le (by decide) (by omega)] at h
      cases hfirst : Nat.toDigits 10 (n / 10) with
      | nil => exact Nat.toDigits_ne_nil hfirst
      | cons c digits =>
        rw [hfirst, List.cons_append] at h
        obtain rfl : c = '0' := (List.cons.inj h).1
        exact ih (n / 10) (by omega) (by omega) digits hfirst

theorem isDigit_of_mem_toDigits {n : Nat} {c : Char} (h : c ∈ Nat.toDigits 10 n) :
    c.isDigit = true :=
  Nat.isDigit_of_mem_toDigits (by decide) (by decide) h

theorem canonicalDecimal_toDigits (n : Nat) : CanonicalDecimal (Nat.toDigits 10 n) where
  ne_nil := Nat.toDigits_ne_nil
  digits _ := isDigit_of_mem_toDigits
  leading h := by
    by_cases hn : n = 0
    · rw [hn]
      rfl
    · obtain ⟨cs, hcs⟩ := List.head?_eq_some_iff.mp h
      exact absurd hcs (toDigits_ne_zero_cons hn cs)

theorem exists_digitChar {c : Char} (h : c.isDigit = true) : ∃ d < 10, c = Nat.digitChar d := by
  have hrange : 48 ≤ c.toNat ∧ c.toNat ≤ 57 := by
    simpa [Char.isDigit, UInt32.le_iff_toNat_le] using h
  refine ⟨c.toNat - 48, by omega, Char.toNat_inj.mp ?_⟩
  rw [Nat.toNat_digitChar_of_lt_ten (by omega)]
  omega

theorem digitsValue_toDigits (n : Nat) : digitsValue (Nat.toDigits 10 n) = n :=
  Nat.ofDigitChars_ten_toDigits

theorem digitsValue_concat (cs : List Char) {d : Nat} (hd : d < 10) :
    digitsValue (cs ++ [Nat.digitChar d]) = 10 * digitsValue cs + d := by
  rw [digitsValue, Nat.ofDigitChars_append, Nat.ofDigitChars_cons_digitChar_of_lt_ten hd,
    Nat.ofDigitChars_nil, digitsValue]

theorem toDigits_digitsValue {cs : List Char} (h : CanonicalDecimal cs) :
    Nat.toDigits 10 (digitsValue cs) = cs := by
  induction cs using List.reverseRecOn with
  | nil => exact absurd rfl h.ne_nil
  | append_singleton cs c ih =>
    obtain ⟨d, hd, rfl⟩ := exists_digitChar (h.digits c (by simp))
    rw [digitsValue_concat cs hd]
    by_cases hnil : cs = []
    · subst hnil
      simpa [digitsValue] using Nat.toDigits_of_lt_base hd
    · have hhead : cs.head? ≠ some '0' := by
        intro hzero
        have hall := congrArg List.length (h.leading (by simp [hzero]))
        simp [hnil] at hall
      have hcs : CanonicalDecimal cs :=
        ⟨hnil, fun c hc => h.digits c (List.mem_append_left _ hc), fun hzero => absurd hzero hhead⟩
      have hpos : 0 < digitsValue cs := by
        refine Nat.pos_of_ne_zero ?_
        intro hzero
        have hdigits := ih hcs
        rw [hzero, Nat.toDigits_zero] at hdigits
        exact hhead (by rw [← hdigits]; rfl)
      rw [← Nat.toDigits_append_toDigits (by decide) hpos hd, ih hcs, Nat.toDigits_of_lt_base hd]

end Digits

section Taking
variable {cs digits left rest : List Char}

theorem endsDigits_of_endsNumber (hrest : endsNumber rest = true) : endsDigits rest = true := by
  cases rest with
  | nil => rfl
  | cons c rest =>
    simp only [endsNumber, Bool.not_eq_true', Bool.or_eq_false_iff] at hrest
    simp only [endsDigits, hrest.1.1.1, Bool.not_false]

theorem endsDigits_append (hleft : endsDigits left = true) (hrest : endsDigits rest = true) :
    endsDigits (left ++ rest) = true := by
  cases left with
  | nil => exact hrest
  | cons c left => exact hleft

theorem endsDigits_dropWhile (cs : List Char) : endsDigits (cs.dropWhile Char.isDigit) = true := by
  induction cs with
  | nil => rfl
  | cons c cs ih =>
    cases hc : c.isDigit with
    | true => rwa [List.dropWhile_cons_of_pos hc]
    | false =>
      rw [List.dropWhile_cons_of_neg (by simp [hc]), endsDigits, hc]
      rfl

theorem takeDigits?_eq_some (h : takeDigits? cs = some (digits, left)) :
    digits ≠ [] ∧ (∀ c ∈ digits, c.isDigit = true) ∧ endsDigits left = true ∧
      cs = digits ++ left := by
  rw [takeDigits?, List.span_eq_takeWhile_dropWhile] at h
  split at h
  · cases h
  · next hne heq =>
    obtain ⟨rfl, rfl⟩ := Prod.mk.inj (Option.some.inj h)
    obtain ⟨rfl, rfl⟩ := Prod.mk.inj heq
    exact ⟨hne, List.all_eq_true.mp List.all_takeWhile, endsDigits_dropWhile cs,
      List.takeWhile_append_dropWhile.symm⟩

theorem takeDigits?_of_digits (hne : digits ≠ []) (hdigits : ∀ c ∈ digits, c.isDigit = true)
    (hrest : endsDigits rest = true) : takeDigits? (digits ++ rest) = some (digits, rest) := by
  have hstop : rest.takeWhile Char.isDigit = [] ∧ rest.dropWhile Char.isDigit = rest := by
    cases rest with
    | nil => exact ⟨rfl, rfl⟩
    | cons c rest =>
      have hc : c.isDigit = false := by
        simpa only [endsDigits, Bool.not_eq_true'] using hrest
      exact ⟨List.takeWhile_cons_of_neg (by simp [hc]), List.dropWhile_cons_of_neg (by simp [hc])⟩
  have hspan : (digits ++ rest).span Char.isDigit = (digits, rest) := by
    rw [List.span_eq_takeWhile_dropWhile, List.takeWhile_append_of_pos hdigits,
      List.dropWhile_append_of_pos hdigits, hstop.1, hstop.2, List.append_nil]
  rw [takeDigits?, hspan]
  cases digits with
  | nil => exact absurd rfl hne
  | cons c digits => rfl

theorem takeDigits?_append (h : takeDigits? cs = some (digits, left))
    (hrest : endsDigits rest = true) :
    takeDigits? (cs ++ rest) = some (digits, left ++ rest) := by
  obtain ⟨hne, hdigits, hleft, rfl⟩ := takeDigits?_eq_some h
  rw [List.append_assoc, takeDigits?_of_digits hne hdigits (endsDigits_append hleft hrest)]

theorem takeWhole?_eq_some (h : takeWhole? cs = some (digits, left)) :
    CanonicalDecimal digits ∧ cs = digits ++ left := by
  unfold takeWhole? at h
  split at h
  · obtain ⟨rfl, rfl⟩ := Prod.mk.inj (Option.some.inj h)
    exact ⟨canonicalDecimal_toDigits 0, rfl⟩
  · next hzero =>
    obtain ⟨hne, hdigits, -, happend⟩ := takeDigits?_eq_some h
    refine ⟨⟨hne, hdigits, ?_⟩, happend⟩
    intro hhead
    obtain ⟨others, rfl⟩ := List.head?_eq_some_iff.mp hhead
    exact absurd happend (hzero (others ++ left))

theorem takeWhole?_of_canonical (h : CanonicalDecimal digits) (hrest : endsDigits rest = true) :
    takeWhole? (digits ++ rest) = some (digits, rest) := by
  have hdigits := takeDigits?_of_digits h.ne_nil h.digits hrest
  cases digits with
  | nil => exact absurd rfl h.ne_nil
  | cons c digits =>
    by_cases hc : c = '0'
    · subst hc
      obtain rfl := (List.cons.inj (h.leading rfl)).2
      rfl
    · rw [List.cons_append, takeWhole?]
      · exact hdigits
      · intro _ heq
        exact hc (List.cons.inj heq).1

theorem takeWhole?_append (h : takeWhole? cs = some (digits, left))
    (hrest : endsDigits rest = true) :
    takeWhole? (cs ++ rest) = some (digits, left ++ rest) := by
  unfold takeWhole? at h
  split at h
  · obtain ⟨rfl, rfl⟩ := Prod.mk.inj (Option.some.inj h)
    rfl
  · next hzero =>
    rw [← takeDigits?_append h hrest]
    cases cs with
    | nil => cases h
    | cons c cs =>
      rw [List.cons_append, takeWhole?]
      intro _ heq
      obtain ⟨rfl, -⟩ := List.cons.inj heq
      exact hzero cs rfl

theorem takeFraction?_of_endsNumber (hrest : endsNumber rest = true) :
    takeFraction? rest = some ([], rest) := by
  unfold takeFraction?
  split
  · simp [endsNumber] at hrest
  · rfl

theorem takeFraction?_eq_some_nil (h : takeFraction? cs = some ([], left)) : left = cs := by
  unfold takeFraction? at h
  split at h
  · exact absurd rfl (takeDigits?_eq_some h).1
  · exact (Prod.mk.inj (Option.some.inj h)).2.symm

theorem takeFraction?_append (h : takeFraction? cs = some (digits, left))
    (hrest : endsNumber rest = true) :
    takeFraction? (cs ++ rest) = some (digits, left ++ rest) := by
  cases cs with
  | nil =>
    obtain ⟨rfl, rfl⟩ := Prod.mk.inj (Option.some.inj h)
    exact takeFraction?_of_endsNumber hrest
  | cons c cs =>
    by_cases hc : c = '.'
    · subst hc
      replace h : takeDigits? cs = some (digits, left) := h
      exact takeDigits?_append h (endsDigits_of_endsNumber hrest)
    · have hnone : ∀ text, takeFraction? (c :: text) = some ([], c :: text) := by
        intro text
        rw [takeFraction?]
        intro _ heq
        exact hc (List.cons.inj heq).1
      obtain ⟨rfl, rfl⟩ := Prod.mk.inj (Option.some.inj ((hnone cs).symm.trans h))
      exact hnone (cs ++ rest)

theorem map_takeDigits?_append (value : List Char → Int) {exponent : Int}
    (h : (takeDigits? cs).map (fun (digits, rest) => (value digits, rest)) = some (exponent, left))
    (hrest : endsDigits rest = true) :
    (takeDigits? (cs ++ rest)).map (fun (digits, rest) => (value digits, rest)) =
      some (exponent, left ++ rest) := by
  obtain ⟨⟨digits, _⟩, htake, heq⟩ := Option.map_eq_some_iff.mp h
  obtain ⟨rfl, rfl⟩ := Prod.mk.inj heq
  rw [takeDigits?_append htake hrest, Option.map_some]

theorem takeSigned?_append {exponent : Int} (h : takeSigned? cs = some (exponent, left))
    (hrest : endsDigits rest = true) :
    takeSigned? (cs ++ rest) = some (exponent, left ++ rest) := by
  unfold takeSigned? at h
  split at h
  · exact map_takeDigits?_append (fun digits => -(digitsValue digits : Int)) h hrest
  · exact map_takeDigits?_append (fun digits => (digitsValue digits : Int)) h hrest
  · next hminus hplus =>
    rw [← map_takeDigits?_append (fun digits => (digitsValue digits : Int)) h hrest]
    cases cs with
    | nil => cases h
    | cons c cs =>
      rw [List.cons_append, takeSigned?]
      · intro _ heq
        obtain ⟨rfl, -⟩ := List.cons.inj heq
        exact hminus cs rfl
      · intro _ heq
        obtain ⟨rfl, -⟩ := List.cons.inj heq
        exact hplus cs rfl

theorem takeExponent?_of_endsNumber (hrest : endsNumber rest = true) :
    takeExponent? rest = some (none, rest) := by
  cases rest with
  | nil => rfl
  | cons c rest =>
    have hc : ¬(c = 'e' ∨ c = 'E') := by
      rintro (rfl | rfl) <;> simp [endsNumber] at hrest
    rw [takeExponent?, if_neg hc]

theorem takeExponent?_eq_some_none (h : takeExponent? cs = some (none, left)) : left = cs := by
  unfold takeExponent? at h
  split at h
  · split at h
    · obtain ⟨_, -, heq⟩ := Option.map_eq_some_iff.mp h
      nomatch heq
    · exact (Prod.mk.inj (Option.some.inj h)).2.symm
  · exact (Prod.mk.inj (Option.some.inj h)).2.symm

theorem takeExponent?_append {exponent : Option Int} (h : takeExponent? cs = some (exponent, left))
    (hrest : endsNumber rest = true) :
    takeExponent? (cs ++ rest) = some (exponent, left ++ rest) := by
  cases cs with
  | nil =>
    obtain ⟨rfl, rfl⟩ := Prod.mk.inj (Option.some.inj h)
    exact takeExponent?_of_endsNumber hrest
  | cons c cs =>
    rw [takeExponent?] at h
    rw [List.cons_append, takeExponent?]
    split
    · next hmark =>
      rw [if_pos hmark] at h
      obtain ⟨⟨exponent, _⟩, htake, heq⟩ := Option.map_eq_some_iff.mp h
      obtain ⟨rfl, rfl⟩ := Prod.mk.inj heq
      rw [takeSigned?_append htake (endsDigits_of_endsNumber hrest)]
      rfl
    · next hmark =>
      rw [if_neg hmark] at h
      obtain ⟨rfl, rfl⟩ := Prod.mk.inj (Option.some.inj h)
      rfl

end Taking

section Numbers
variable {negative : Bool} {json : Json} {cs left rest : List Char}

theorem unsigned?_eq_some (h : unsigned? negative cs = some (json, left)) :
    ∃ whole afterWhole fraction afterFraction exponent,
      takeWhole? cs = some (whole, afterWhole) ∧
      takeFraction? afterWhole = some (fraction, afterFraction) ∧
      takeExponent? afterFraction = some (exponent, left) ∧
      json = ofNumeral negative whole fraction exponent := by
  simp only [unsigned?, Option.bind_eq_bind, Option.bind_eq_some_iff] at h
  obtain ⟨⟨whole, afterWhole⟩, hwhole, ⟨fraction, afterFraction⟩, hfraction, ⟨exponent, _⟩,
    hexponent, hjson⟩ := h
  obtain ⟨rfl, rfl⟩ := Prod.mk.inj (Option.some.inj hjson)
  exact ⟨whole, afterWhole, fraction, afterFraction, exponent, hwhole, hfraction, hexponent, rfl⟩

theorem unsigned?_append (h : unsigned? negative cs = some (json, left))
    (hrest : endsNumber rest = true) :
    unsigned? negative (cs ++ rest) = some (json, left ++ rest) := by
  obtain ⟨whole, afterWhole, fraction, afterFraction, exponent, hwhole, hfraction, hexponent,
    rfl⟩ := unsigned?_eq_some h
  simp only [unsigned?, takeWhole?_append hwhole (endsDigits_of_endsNumber hrest),
    takeFraction?_append hfraction hrest, takeExponent?_append hexponent hrest,
    Option.bind_eq_bind, Option.bind_some]

theorem unsigned?_eq_cons (h : unsigned? negative cs = some (json, left)) :
    ∃ c others, cs = c :: others ∧ c.isDigit = true := by
  obtain ⟨whole, _, _, _, _, hwhole, -⟩ := unsigned?_eq_some h
  obtain ⟨hcanonical, rfl⟩ := takeWhole?_eq_some hwhole
  cases whole with
  | nil => exact absurd rfl hcanonical.ne_nil
  | cons c digits => exact ⟨c, _, rfl, hcanonical.digits c List.mem_cons_self⟩

theorem number?_of_ne_minus {c : Char} (hc : c ≠ '-') (cs : List Char) :
    number? (c :: cs) = unsigned? false (c :: cs) := by
  rw [number?]
  intro _ heq
  exact hc (List.cons.inj heq).1

theorem number?_eq_cons (h : number? cs = some (json, left)) :
    ∃ c others, cs = c :: others ∧ (c = '-' ∨ c.isDigit = true) := by
  unfold number? at h
  split at h
  · next others => exact ⟨'-', others, rfl, .inl rfl⟩
  · obtain ⟨c, others, rfl, hc⟩ := unsigned?_eq_cons h
    exact ⟨c, others, rfl, .inr hc⟩

/-- A number is read alike when more text follows that does not go on with it. -/
theorem number?_append (h : number? cs = some (json, left)) (hrest : endsNumber rest = true) :
    number? (cs ++ rest) = some (json, left ++ rest) := by
  obtain ⟨c, others, rfl, -⟩ := number?_eq_cons h
  by_cases hc : c = '-'
  · subst hc
    replace h : unsigned? true others = some (json, left) := h
    exact unsigned?_append h hrest
  · rw [number?_of_ne_minus hc] at h
    rw [List.cons_append, number?_of_ne_minus hc]
    exact unsigned?_append h hrest

end Numbers

section Integers

theorem le_ofDigitChars (digits : List Char) (significand : Nat) :
    significand ≤ Nat.ofDigitChars 10 digits significand := by
  induction digits generalizing significand with
  | nil => exact Nat.le_refl significand
  | cons c digits ih =>
    have hnext := ih (10 * significand + (c.toNat - '0'.toNat))
    rw [Nat.ofDigitChars_cons]
    omega

theorem gather_of_lt {digits : List Char} {significand : Nat}
    (h : Nat.ofDigitChars 10 digits significand < UInt64.size) :
    gather significand digits = (Nat.ofDigitChars 10 digits significand, []) := by
  induction digits generalizing significand with
  | nil => rfl
  | cons c digits ih =>
    rw [Nat.ofDigitChars_cons] at h ⊢
    rw [gather, if_pos (Nat.lt_of_le_of_lt (le_ofDigitChars digits _) h), ih h]

theorem gather_eq_nil {digits : List Char} {significand value : Nat}
    (h : gather significand digits = (value, [])) :
    value = Nat.ofDigitChars 10 digits significand := by
  induction digits generalizing significand with
  | nil => exact (Prod.mk.inj h).1.symm
  | cons c digits ih =>
    rw [gather] at h
    split at h
    · rw [ih h, Nat.ofDigitChars_cons]
    · nomatch (Prod.mk.inj h).2

theorem ofInteger_of_neg {n : Int} (hn : n < 0) (hlow : Int64.minValue.toInt ≤ n) :
    ofInteger true n.natAbs = .int n := by
  have hvalue : -(n.natAbs : Int) = n := by omega
  rw [ofInteger, if_neg (by decide), hvalue, if_pos ⟨by omega, hlow⟩]

theorem unsigned?_toDigits (negative : Bool) {n : Nat} (hn : n < UInt64.size) :
    unsigned? negative (Nat.toDigits 10 n) = some (ofInteger negative n, []) := by
  have hends : endsDigits [] = true := rfl
  have hwhole := takeWhole?_of_canonical (canonicalDecimal_toDigits n) hends
  have hgather : gather 0 (Nat.toDigits 10 n) = (n, []) := by
    have hvalue := digitsValue_toDigits n
    rw [digitsValue] at hvalue
    rw [gather_of_lt (by rwa [hvalue]), hvalue]
  rw [List.append_nil] at hwhole
  simp only [unsigned?, hwhole, takeFraction?, takeExponent?, ofNumeral, hgather,
    Option.bind_eq_bind, Option.bind_some]

/-- An integer is read back from its text, if it is a word of 64 bits with or without a sign. -/
theorem number?_integerText {n : Int} (hlow : Int64.minValue.toInt ≤ n)
    (hhigh : n < UInt64.size) : number? (integerText n) = some (.int n, []) := by
  have hleast : Int64.minValue.toInt = -(UInt64.size / 2 : Nat) := rfl
  have hread : ∀ negative, unsigned? negative (Nat.toDigits 10 n.natAbs) =
      some (ofInteger negative n.natAbs, []) :=
    fun negative => unsigned?_toDigits negative (by omega)
  by_cases hn : n < 0
  · rw [integerText, if_pos hn, number?, hread, ofInteger_of_neg hn hlow]
  · have hvalue : ofInteger false n.natAbs = .int n := by
      have hcast : (n.natAbs : Int) = n := by omega
      simp [ofInteger, hcast]
    obtain ⟨c, others, hdigits, hc⟩ := unsigned?_eq_cons (hread false)
    rw [integerText, if_neg hn, hdigits, number?_of_ne_minus, ← hdigits, hread, hvalue]
    rintro rfl
    exact absurd hc (by decide)

/-- Only a numeral without a sign, a fraction and an exponent is an integer that is not negative:
even zero with a sign is none. -/
theorem ofNumeral_eq_int {negative : Bool} {whole fraction : List Char} {exponent : Option Int}
    {n : Int} (h : ofNumeral negative whole fraction exponent = .int n) (hn : 0 ≤ n) :
    negative = false ∧ fraction = [] ∧ exponent = none ∧ n = digitsValue whole := by
  cases hgather : gather 0 whole with
  | mk significand beyond =>
    simp only [ofNumeral, hgather] at h
    split at h
    · obtain rfl := gather_eq_nil hgather
      unfold ofInteger at h
      split at h
      · next hpositive =>
        rw [Bool.not_eq_true'] at hpositive
        exact ⟨hpositive, rfl, rfl, (Json.int.inj h).symm⟩
      · split at h
        · have hvalue := Json.int.inj h
          omega
        · nomatch h
    · unfold ofDecimal at h
      split at h <;> nomatch h

theorem unsigned?_eq_int {negative : Bool} {cs : List Char} {n : Int}
    (h : unsigned? negative cs = some (.int n, [])) (hn : 0 ≤ n) :
    negative = false ∧ CanonicalDecimal cs ∧ n = digitsValue cs := by
  obtain ⟨whole, _, fraction, _, exponent, hwhole, hfraction, hexponent, hjson⟩ :=
    unsigned?_eq_some h
  obtain ⟨hpositive, rfl, rfl, hvalue⟩ := ofNumeral_eq_int hjson.symm hn
  obtain rfl := takeFraction?_eq_some_nil hfraction
  obtain rfl := takeExponent?_eq_some_none hexponent
  obtain ⟨hcanonical, happend⟩ := takeWhole?_eq_some hwhole
  rw [List.append_nil] at happend
  subst happend
  exact ⟨hpositive, hcanonical, hvalue⟩

theorem number?_eq_int {cs : List Char} {n : Int} (h : number? cs = some (.int n, []))
    (hn : 0 ≤ n) : CanonicalDecimal cs ∧ n = digitsValue cs := by
  unfold number? at h
  split at h
  · nomatch (unsigned?_eq_int h hn).1
  · exact (unsigned?_eq_int h hn).2

end Integers
end CombatAccuracy.Json
