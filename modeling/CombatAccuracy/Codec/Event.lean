import CombatAccuracy.Event
import CombatAccuracy.Json.Value
/-!
# Events as JSON

An event is a record of its level, its message and its fields.
-/
namespace CombatAccuracy.Event

def level : Event → String
  | .evaluated .. | .decided .. => "TRACE"
  | .configured .. => "DEBUG"

def message : Event → String
  | .evaluated .. => "Evaluated accuracy"
  | .decided .. => "hit roll"
  | .configured .. => "Loaded accuracy config"

def fields : Event → List (String × Json)
  | .evaluated key rolls chance => [
      ("resolver", .string key.label),
      ("attack_roll", .int rolls.attack.toInt),
      ("defence_roll", .int rolls.defence.toInt),
      ("hit_chance", .int chance.points)]
  | .decided chance draw hit => [
      ("hit_chance", .int chance.points),
      ("roll", .int draw.toNat),
      ("hit", .bool hit)]
  | .configured reduction overrides => [
      ("sunfire_defence_reduction", .int reduction.toInt),
      ("spell_overrides", .int overrides)]

def toJson (event : Event) : Json :=
  .record (("level", .string event.level) :: ("message", .string event.message) :: event.fields)

end CombatAccuracy.Event
