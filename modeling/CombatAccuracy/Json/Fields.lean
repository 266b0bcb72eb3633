import CombatAccuracy.Json.Value
import CombatAccuracy.Vocabulary
/-!
# Reading fields from JSON

The values of fields are numbers, words and what may be null. The members of an object are named by
the texts of their keys, and a record's object names none of its fields twice (`unambiguous`).
Variants are read from an object with one key (`variant?`), or from an object or array that carries
a tag (`tagged?`).
-/
namespace CombatAccuracy

/-- The named values of a record. -/
abbrev Fields := List (String × Json)

namespace Json

def int32? : Json → Option Int32
  | .int n =>
    if Int32.minValue.toInt ≤ n ∧ n ≤ Int32.maxValue.toInt then some (.ofInt n) else none
  | _ => none

def int64? : Json → Option Int64
  | .int n =>
    if Int64.minValue.toInt ≤ n ∧ n ≤ Int64.maxValue.toInt then some (.ofInt n) else none
  | _ => none

def uint32? : Json → Option UInt32
  | .int n => if 0 ≤ n ∧ n < UInt32.size then some (.ofNat n.toNat) else none
  | _ => none

def bool? : Json → Option Bool
  | .bool b => some b
  | _ => none

/-- A double; an integer stands for the nearest one. -/
def float? : Json → Option Float
  | .double x => some x
  | .int n => some (.ofInt n)
  | _ => none

def nullable? {α : Type} (read : Json → Option α) : Json → Option (Option α)
  | .null => some none
  | json => (read json).map some

/-- The members of an object under the texts of their keys. -/
def named? : List (Key × Json) → Option Fields
  | [] => some []
  | (key, value) :: members => do
    let name ← key.text?
    let fields ← named? members
    some ((name, value) :: fields)

def occurrences (name : String) (fields : Fields) : Nat :=
  fields.countP fun field => field.1 == name

/-- Whether no name of a record occurs twice. Other names may. -/
def unambiguous (names : List String) (fields : Fields) : Bool :=
  names.all fun name => occurrences name fields ≤ 1

/-- A word, as a string or as the only key of an object that gives it nothing. -/
def word? : Json → Option String
  | .string s => some s
  | .object [(key, .null)] => key.text?
  | _ => none

def ofWord? {α : Type} [Vocabulary α] (json : Json) : Option α :=
  json.word?.bind Vocabulary.ofWord?

/-- A word in a value that was held whole, where an empty object is nothing as well. -/
def heldWord? : Json → Option String
  | .object [(key, .object [])] => key.text?
  | json => json.word?

def ofHeldWord? {α : Type} [Vocabulary α] (json : Json) : Option α :=
  json.heldWord?.bind Vocabulary.ofWord?

def word {α : Type} [Vocabulary α] (a : α) : Json :=
  .string (Vocabulary.word a)

/-- The only key of an object and its value. -/
def variant? : Json → Option (String × Json)
  | .object [(key, value)] => key.text?.map fun name => (name, value)
  | _ => none

/-- The depth to which a text may nest values that are held whole. -/
def nestingLimit : Nat := 127

/-- The tag of a tagged record and the record without it. A tagged record is held whole until its
tag is known; in an object the tag may stand anywhere, once, and in an array it comes first. -/
def tagged? (tag : String) (room : Nat) (json : Json) : Option (String × Json) :=
  if !json.fits room then none
  else
    match json with
    | .object members => do
      let fields ← named? members
      match fields.filter fun field => field.1 == tag with
      | [(_, .string name)] =>
        some (name, record (fields.filter fun field => !(field.1 == tag)))
      | _ => none
    | .array (.string name :: elements) => some (name, .array elements)
    | _ => none

end Json

/-- The value of a field, or what it has when it is missing. -/
def Fields.value? {α : Type} (fields : Fields) (name : String) (read : Json → Option α)
    (default? : Option α) : Option α :=
  match fields.lookup name with
  | none => default?
  | some json => read json

end CombatAccuracy
