import CombatAccuracy.Json.Value
/-!
# JSON strings

Between its quotes a string is a run of pieces: characters as they are, escaped characters, and
16-bit units in hexadecimal. Two units that form a surrogate pair are one character; any other
surrogate leaves the string without a text.
-/
namespace CombatAccuracy.Json

/-- A piece of a quoted string. -/
inductive Piece where
  | literal (c : Char)
  | escaped (c : Char)
  | unit (value : Nat)
  deriving DecidableEq

/-- The character that an escape of one letter stands for. -/
def shortEscape? : Char → Option Char
  | '"' => some '"'
  | '\\' => some '\\'
  | '/' => some '/'
  | 'b' => some (Char.ofNat 8)
  | 'f' => some (Char.ofNat 12)
  | 'n' => some '\n'
  | 'r' => some '\r'
  | 't' => some '\t'
  | _ => none

def hexValue? (c : Char) : Option Nat :=
  if c.isDigit then some (c.toNat - 48)
  else if 'a' ≤ c ∧ c ≤ 'f' then some (c.toNat - 87)
  else if 'A' ≤ c ∧ c ≤ 'F' then some (c.toNat - 55)
  else none

/-- The unit that four hexadecimal digits stand for. -/
def unitOf? (a b c d : Char) : Option Nat := do
  some ((((← hexValue? a) * 16 + (← hexValue? b)) * 16 + (← hexValue? c)) * 16 + (← hexValue? d))

/-- The pieces up to the closing quote, and the text after it; no control character is a piece. -/
def pieces? : List Char → Option (List Piece × List Char)
  | '"' :: rest => some ([], rest)
  | '\\' :: 'u' :: a :: b :: c :: d :: rest => do
    let value ← unitOf? a b c d
    let (pieces, rest) ← pieces? rest
    some (.unit value :: pieces, rest)
  | '\\' :: c :: rest => do
    let c ← shortEscape? c
    let (pieces, rest) ← pieces? rest
    some (.escaped c :: pieces, rest)
  | c :: rest =>
    if c.toNat < 32 then none
    else do
      let (pieces, rest) ← pieces? rest
      some (.literal c :: pieces, rest)
  | [] => none

/-- Whether a unit is the first of a surrogate pair. -/
def isLeading (value : Nat) : Bool := 0xD800 ≤ value && value < 0xDC00

/-- Whether a unit is the second of a surrogate pair. -/
def isTrailing (value : Nat) : Bool := 0xDC00 ≤ value && value < 0xE000

/-- The characters that pieces spell. -/
def spell? : List Piece → Option (List Char)
  | [] => some []
  | .literal c :: pieces | .escaped c :: pieces => (spell? pieces).map (c :: ·)
  | .unit first :: .unit second :: pieces =>
    if isLeading first && isTrailing second then
      (spell? pieces).map
        (Char.ofNat (0x10000 + (first - 0xD800) * 0x400 + (second - 0xDC00)) :: ·)
    else if isLeading first || isTrailing first then none
    else (spell? (.unit second :: pieces)).map (Char.ofNat first :: ·)
  | .unit value :: pieces =>
    if isLeading value || isTrailing value then none
    else (spell? pieces).map (Char.ofNat value :: ·)

def ofPieces (pieces : List Piece) : Json :=
  match spell? pieces with
  | some cs => .string (String.ofList cs)
  | none => .unreadable

def Piece.isLiteral : Piece → Bool
  | .literal _ => true
  | _ => false

/-- The key of a member from its pieces. -/
def keyOfPieces (pieces : List Piece) : Key :=
  match spell? pieces with
  | some cs =>
    if pieces.all Piece.isLiteral then .plain (String.ofList cs) else .escaped (String.ofList cs)
  | none => .unreadable

def hexDigit (n : Nat) : Char :=
  if n < 10 then Char.ofNat (48 + n) else Char.ofNat (87 + n)

/-- The letter of the escape that a character is written as, if it has one. -/
def escapeLetter? (c : Char) : Option Char :=
  if c = '"' ∨ c = '\\' then some c
  else if c = Char.ofNat 8 then some 'b'
  else if c = Char.ofNat 12 then some 'f'
  else if c = '\n' then some 'n'
  else if c = '\r' then some 'r'
  else if c = '\t' then some 't'
  else none

/-- A character as it is written between quotes: with the letter of its escape after a backslash,
other control characters as units, and all others as they are. -/
def quoteChar (c : Char) : List Char :=
  match escapeLetter? c with
  | some letter => ['\\', letter]
  | none =>
    if c.toNat < 32 then ['\\', 'u', '0', '0', hexDigit (c.toNat / 16), hexDigit (c.toNat % 16)]
    else [c]

def quote (s : String) : List Char :=
  '"' :: s.toList.flatMap quoteChar ++ ['"']

end CombatAccuracy.Json
