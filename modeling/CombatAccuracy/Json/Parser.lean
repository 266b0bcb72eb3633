import CombatAccuracy.Json.Numeral
import CombatAccuracy.Json.Quoted
/-!
# Reading JSON text

The reader accepts strict JSON: one value with blanks around it and around its punctuation, and
nothing else. Each function takes what it reads off the front of the text and returns the rest; the
fuel of the nested ones is twice the text's length, which no text uses up, because of two calls in a
row one takes a character.
-/
namespace CombatAccuracy.Json

def isBlank (c : Char) : Bool :=
  c = ' ' || c = '\t' || c = '\n' || c = '\r'

def skipBlanks (cs : List Char) : List Char :=
  cs.dropWhile isBlank

mutual

/-- The value that a text starts with, and the text after it. -/
def value? (fuel : Nat) (cs : List Char) : Option (Json × List Char) :=
  match fuel with
  | 0 => none
  | fuel + 1 =>
    match skipBlanks cs with
    | 'n' :: 'u' :: 'l' :: 'l' :: rest => some (.null, rest)
    | 't' :: 'r' :: 'u' :: 'e' :: rest => some (.bool true, rest)
    | 'f' :: 'a' :: 'l' :: 's' :: 'e' :: rest => some (.bool false, rest)
    | '"' :: rest => (pieces? rest).map fun (pieces, rest) => (ofPieces pieces, rest)
    | '[' :: rest =>
      match skipBlanks rest with
      | ']' :: rest => some (.array [], rest)
      | rest => (elements? fuel rest).map fun (elements, rest) => (.array elements, rest)
    | '{' :: rest =>
      match skipBlanks rest with
      | '}' :: rest => some (.object [], rest)
      | rest => (members? fuel rest).map fun (members, rest) => (.object members, rest)
    | cs => number? cs

/-- The elements of an array up to its end, at least one. -/
def elements? (fuel : Nat) (cs : List Char) : Option (List Json × List Char) :=
  match fuel with
  | 0 => none
  | fuel + 1 => do
    let (element, cs) ← value? fuel cs
    match skipBlanks cs with
    | ']' :: rest => some ([element], rest)
    | ',' :: rest => (elements? fuel rest).map fun (elements, rest) => (element :: elements, rest)
    | _ => none

/-- The members of an object up to its end, at least one. -/
def members? (fuel : Nat) (cs : List Char) : Option (List (Key × Json) × List Char) :=
  match fuel with
  | 0 => none
  | fuel + 1 =>
    match skipBlanks cs with
    | '"' :: cs => do
      let (pieces, cs) ← pieces? cs
      let key := keyOfPieces pieces
      match skipBlanks cs with
      | ':' :: cs =>
        let (value, cs) ← value? fuel cs
        match skipBlanks cs with
        | '}' :: rest => some ([(key, value)], rest)
        | ',' :: rest =>
          (members? fuel rest).map fun (members, rest) => ((key, value) :: members, rest)
        | _ => none
      | _ => none
    | _ => none

end

/-- The value that a text consists of. -/
def parse? (text : String) : Option Json :=
  let cs := text.toList
  match value? (2 * cs.length + 1) cs with
  | some (value, rest) => if skipBlanks rest = [] then some value else none
  | none => none

end CombatAccuracy.Json
