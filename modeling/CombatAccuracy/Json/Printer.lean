import CombatAccuracy.Json.Quoted
import CombatAccuracy.Json.Shortest
/-!
# Writing JSON text

A value is written without blanks. A finite double is written in as few digits as tell it, with a
point where that takes few places and with an exponent elsewhere; what has no literal of its own is
written as null.
-/
namespace CombatAccuracy.Json

def integerText (n : Int) : List Char :=
  if n < 0 then '-' :: Nat.toDigits 10 n.natAbs else Nat.toDigits 10 n.natAbs

/-- Digits times a power of ten: with a point if it falls among at most sixteen digits or at most
four zeros follow it, and else with an exponent. -/
def decimalText (digits : List Char) (places : Int) : List Char :=
  let point := digits.length + places
  if 0 ≤ places ∧ point ≤ 16 then
    digits ++ List.replicate places.toNat '0' ++ ['.', '0']
  else if 0 < point ∧ point ≤ 16 then
    digits.take point.toNat ++ '.' :: digits.drop point.toNat
  else if -5 < point ∧ point ≤ 0 then
    '0' :: '.' :: List.replicate (-point).toNat '0' ++ digits
  else
    match digits with
    | first :: second :: others =>
      first :: '.' :: second :: others ++ 'e' :: integerText (point - 1)
    | _ => digits ++ 'e' :: integerText (point - 1)

def doubleText (x : Float) : List Char :=
  match Binary64.ofFloat x with
  | .finite mantissa exponent =>
    let sign := if x.toBits.toNat.testBit 63 then ['-'] else []
    if mantissa = 0 then sign ++ ['0', '.', '0']
    else
      let (digits, places) := Binary64.shortestDecimal mantissa.natAbs exponent
      sign ++ decimalText (Nat.toDigits 10 digits) places
  | _ => ['n', 'u', 'l', 'l']

mutual

/-- A value as text. -/
def chars : Json → List Char
  | .null | .unreadable => ['n', 'u', 'l', 'l']
  | .bool true => ['t', 'r', 'u', 'e']
  | .bool false => ['f', 'a', 'l', 's', 'e']
  | .int n => integerText n
  | .double x => doubleText x
  | .string s => quote s
  | .array elements => '[' :: elementsText elements
  | .object members => '{' :: membersText members

/-- The elements of an array and its closing bracket. -/
def elementsText : List Json → List Char
  | [] => [']']
  | [element] => chars element ++ [']']
  | element :: elements => chars element ++ ',' :: elementsText elements

/-- The members of an object and its closing brace. -/
def membersText : List (Key × Json) → List Char
  | [] => ['}']
  | [(key, value)] => quote (key.text?.getD "") ++ ':' :: chars value ++ ['}']
  | (key, value) :: members =>
    quote (key.text?.getD "") ++ ':' :: chars value ++ ',' :: membersText members

end

/-- A value as text. -/
def render (json : Json) : String :=
  String.ofList (chars json)

end CombatAccuracy.Json
