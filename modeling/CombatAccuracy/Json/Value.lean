/-!
# JSON values

A value keeps what its reader may have to tell apart: the order and the repeats of members, whether
a number is written as an integer, and whether a key is written without escapes. A literal can be
well formed and still have no value, such as a number beyond all doubles or half of a surrogate
pair; it stays in the value as `unreadable`, because only a reader that wants it fails.
-/
namespace CombatAccuracy

inductive Key where
  | plain (text : String)
  | escaped (text : String)
  | unreadable
  deriving DecidableEq, Repr

/-- The text of a key, whichever way it is written. -/
def Key.text? : Key → Option String
  | .plain text | .escaped text => some text
  | .unreadable => none

inductive Json where
  | null
  | bool (value : Bool)
  | int (value : Int)
  | double (value : Float)
  | string (value : String)
  | array (elements : List Json)
  | object (members : List (Key × Json))
  | unreadable

namespace Json

/-- An object whose keys need no escapes. -/
def record (members : List (String × Json)) : Json :=
  .object (members.map fun (name, value) => (.plain name, value))

def ofOption {α : Type} (write : α → Json) : Option α → Json
  | none => .null
  | some a => write a

mutual

/-- Whether a value can be held whole: it has no unreadable part, and nests at most `room` deep. -/
def fits (room : Nat) : Json → Bool
  | .unreadable => false
  | .array elements =>
    match room with
    | 0 => false
    | room + 1 => allFit room elements
  | .object members =>
    match room with
    | 0 => false
    | room + 1 => membersFit room members
  | _ => true

def allFit (room : Nat) : List Json → Bool
  | [] => true
  | element :: elements => fits room element && allFit room elements

def membersFit (room : Nat) : List (Key × Json) → Bool
  | [] => true
  | (key, value) :: members => key.text?.isSome && fits room value && membersFit room members

end

end Json
end CombatAccuracy
