import CombatAccuracy.Json.Value
/-!
# JSON numbers

A number is an optional minus sign, an integer without leading zeros, and optionally a fraction and
an exponent. Its digits are gathered in 64 bits, and those that do not fit are dropped. Without
fraction and exponent it is read as an integer if that is a word of 64 bits, except that `-0` is a
double. Any other number is the double of its digits times or over the double of a power of ten: it
is rounded twice, so it need not be the nearest double to the number.
-/
namespace CombatAccuracy.Json

/-- The digits a text starts with, of which there must be one, and the text after them. -/
def takeDigits? (cs : List Char) : Option (List Char × List Char) :=
  match cs.span Char.isDigit with
  | ([], _) => none
  | (digits, rest) => some (digits, rest)

/-- The integer part: zero alone, or digits that do not start with zero. -/
def takeWhole? : List Char → Option (List Char × List Char)
  | '0' :: rest => some (['0'], rest)
  | cs => takeDigits? cs

/-- The fraction's digits; a point must be followed by one. -/
def takeFraction? : List Char → Option (List Char × List Char)
  | '.' :: rest => takeDigits? rest
  | cs => some ([], cs)

def digitsValue (digits : List Char) : Nat :=
  Nat.ofDigitChars 10 digits 0

/-- The digits of an exponent after its mark, with their sign. -/
def takeSigned? : List Char → Option (Int × List Char)
  | '-' :: rest => (takeDigits? rest).map fun (digits, rest) => (-(digitsValue digits : Int), rest)
  | '+' :: rest => (takeDigits? rest).map fun (digits, rest) => ((digitsValue digits : Int), rest)
  | cs => (takeDigits? cs).map fun (digits, rest) => ((digitsValue digits : Int), rest)

def takeExponent? : List Char → Option (Option Int × List Char)
  | c :: rest =>
    if c = 'e' ∨ c = 'E' then (takeSigned? rest).map fun (exponent, rest) => (some exponent, rest)
    else some (none, c :: rest)
  | [] => some (none, [])

/-- The digits appended to a significand as long as it keeps to 64 bits, and the digits it has no
room for. -/
def gather (significand : Nat) : List Char → Nat × List Char
  | [] => (significand, [])
  | c :: digits =>
    let next := 10 * significand + (c.toNat - '0'.toNat)
    if next < UInt64.size then gather next digits else (significand, c :: digits)

/-- The double nearest to a power of ten. -/
def powerOfTen (places : Nat) : Float :=
  Float.ofScientific 1 false places

/-- The places of the greatest power of ten that has a double near it. -/
def greatestPlaces : Nat := 308

/-- A double over a power of ten, of which no more is taken at once than there is a double for. -/
def overPowerOfTen (x : Float) (places : Nat) : Float :=
  if places ≤ greatestPlaces then x / powerOfTen places
  else if x == 0 then x
  else overPowerOfTen (x / powerOfTen greatestPlaces) (places - greatestPlaces)
termination_by places
decreasing_by
  simp only [greatestPlaces] at *
  omega

/-- A double times a power of ten, unless that is beyond all doubles. -/
def timesPowerOfTen? (x : Float) : Int → Option Float
  | .negSucc places => some (overPowerOfTen x (places + 1))
  | .ofNat places =>
    if places ≤ greatestPlaces then
      let product := x * powerOfTen places
      if product.isInf then none else some product
    else if x == 0 then some x
    else none

/-- An integer literal's value. A word of 64 bits with its sign is an integer, but a zero that has
one is not. -/
def ofInteger (negative : Bool) (significand : Nat) : Json :=
  if !negative then .int significand
  else if 0 < significand ∧ Int64.minValue.toInt ≤ -significand then .int (-significand)
  else .double (-Float.ofNat significand)

/-- The value of a significand with a power of ten, if a double is not too small for it. -/
def ofDecimal (negative : Bool) (significand : Nat) (exponent : Int) : Json :=
  match timesPowerOfTen? (Float.ofNat significand) exponent with
  | some x => .double (if negative then -x else x)
  | none => .unreadable

def ofNumeral (negative : Bool) (whole fraction : List Char) (exponent : Option Int) : Json :=
  let (significand, beyond) := gather 0 whole
  match beyond, fraction, exponent with
  | [], [], none => ofInteger negative significand
  | _, _, _ =>
    let (significand, dropped) := gather significand fraction
    ofDecimal negative significand
      (exponent.getD 0 + beyond.length + dropped.length - fraction.length)

/-- The number a text starts with after its sign, and the text after it. -/
def unsigned? (negative : Bool) (cs : List Char) : Option (Json × List Char) := do
  let (whole, cs) ← takeWhole? cs
  let (fraction, cs) ← takeFraction? cs
  let (exponent, cs) ← takeExponent? cs
  some (ofNumeral negative whole fraction exponent, cs)

def number? : List Char → Option (Json × List Char)
  | '-' :: cs => unsigned? true cs
  | cs => unsigned? false cs

end CombatAccuracy.Json
