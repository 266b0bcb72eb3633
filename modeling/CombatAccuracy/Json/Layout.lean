import CombatAccuracy.Json.Fields
/-!
# Reading records from JSON

A record's fields are laid out in an order, with a name for each. Its values come in an object,
under these names in any order, or in an array, without names and in this order. The two forms are
read by ways of their own: an object's members are looked up (`Layout.ofFields?`), and an array's
elements are taken one by one (`Layout.ofElements?`).
-/
namespace CombatAccuracy

/-- The fields of a record in order: what they make, and for each its name, its reader, and the
value it has when it is missing, if it may be. -/
inductive Layout : Type → Type 1
  | made {α : Type} (a : α) : Layout α
  | field {α β : Type} (earlier : Layout (β → α)) (name : String) (read : Json → Option β)
      (default? : Option β) : Layout α

namespace Layout

@[simp] def names {α : Type} : Layout α → List String
  | made _ => []
  | field earlier name _ _ => earlier.names ++ [name]

/-- The record in an array's first elements, taken one by one, and the elements left over. -/
def take? {α : Type} : Layout α → List Json → Option (α × List Json)
  | made a, elements => some (a, elements)
  | field earlier _ read default?, elements => do
    let (make, elements) ← earlier.take? elements
    match elements with
    | [] => default?.map fun value => (make value, [])
    | element :: elements => (read element).map fun value => (make value, elements)

/-- The record that these elements hold, all of which must be taken. -/
def ofElements? {α : Type} (layout : Layout α) (elements : List Json) : Option α := do
  let (a, rest) ← layout.take? elements
  if rest.isEmpty then some a else none

/-- The record whose fields are found by their names. -/
@[simp] def ofFields? {α : Type} : Layout α → Fields → Option α
  | made a, _ => some a
  | field earlier name read default?, fields => do
    let make ← earlier.ofFields? fields
    let value ← fields.value? name read default?
    some (make value)

variable {α : Type} (layout : Layout α)

/-- The record that an object or an array holds. -/
def read? : Json → Option α
  | .object members => ((Json.named? members).filter (Json.unambiguous layout.names)).bind
      layout.ofFields?
  | .array elements => layout.ofElements? elements
  | _ => none

/-- The record of a variant: in an array all of its fields must be there. -/
def readVariant? : Json → Option α
  | .array elements =>
    if elements.length = layout.names.length then layout.ofElements? elements else none
  | json => layout.read? json

end Layout
end CombatAccuracy
