import CombatAccuracy.Formula
/-!
# Events

What is worth tracing: an evaluated chance, a decided hit, a loaded configuration. A traced
computation is its value with the events it emitted, oldest first.
-/
namespace CombatAccuracy

inductive Event where
  | evaluated (key : FormulaKey) (rolls : Rolls) (chance : HitChance)
  | decided (chance : HitChance) (draw : UInt32) (hit : Bool)
  | configured (sunfireReduction : Int32) (spellOverrides : Nat)
  deriving DecidableEq

/-- A value and the events emitted on the way to it. -/
structure Traced (α : Type) where
  value : α
  events : List Event := []

namespace Traced

instance : Monad Traced where
  pure value := { value }
  bind x f := { value := (f x.value).value, events := x.events ++ (f x.value).events }

def emit (event : Event) : Traced Unit :=
  { value := (), events := [event] }

end Traced
end CombatAccuracy
