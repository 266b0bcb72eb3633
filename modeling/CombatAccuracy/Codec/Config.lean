import CombatAccuracy.Config
import CombatAccuracy.Event
import CombatAccuracy.Json.Layout
import CombatAccuracy.Json.Parser
/-!
# Configurations as JSON

A configuration is a record with defaults. Its spells are members of an object, each under its
number in plain decimal; the last of several members with one number counts. Loading reads a text,
checks the configuration, and traces it if it can be used.
-/
namespace CombatAccuracy
open Json (word ofWord? record)

/-- A spell number as the key of a member: an integer literal, written without escapes. -/
def SpellId.ofKey? : Key → Option SpellId
  | .plain text =>
    match Json.number? text.toList with
    | some (json, []) => json.uint32?.map SpellId.mk
    | _ => none
  | _ => none

namespace SpellColumns

def members? : List (Key × Json) → Option (List (SpellId × BonusColumn))
  | [] => some []
  | (key, value) :: members => do
    let spell ← SpellId.ofKey? key
    let column ← ofWord? value
    let others ← members? members
    some ((spell, column) :: others)

def ofJson? : Json → Option SpellColumns
  | .object members => (members? members).map ofList
  | _ => none

/-- A map as an object, by ascending number. -/
def toJson (columns : SpellColumns) : Json :=
  record (columns.entries.map fun (spell, column) => (spell.text, word column))

end SpellColumns

namespace SpellbookColumns

def layout : Layout SpellbookColumns :=
  Layout.made SpellbookColumns.mk
    |>.field "standard" ofWord? (some .magic)
    |>.field "ancients" ofWord? (some .magic)
    |>.field "lunar" ofWord? (some .magic)
    |>.field "arceuus" ofWord? (some .magic)

def ofJson? (json : Json) : Option SpellbookColumns :=
  layout.read? json

def toJson (columns : SpellbookColumns) : Json :=
  record [
    ("standard", word columns.standard),
    ("ancients", word columns.ancients),
    ("lunar", word columns.lunar),
    ("arceuus", word columns.arceuus)]

end SpellbookColumns

namespace Config

def layout : Layout Config :=
  Layout.made Config.mk
    |>.field "sunfire_defence_reduction" Json.int32? (some 0)
    |>.field "spellbook_defence_columns" SpellbookColumns.ofJson? (some {})
    |>.field "spell_defence_columns" SpellColumns.ofJson? (some .empty)

/-- The configuration that a record holds, not yet checked. -/
def ofJson? (json : Json) : Option Config :=
  layout.read? json

def toJson (config : Config) : Json :=
  record [
    ("sunfire_defence_reduction", .int config.sunfireReduction.toInt),
    ("spellbook_defence_columns", config.spellbookColumns.toJson),
    ("spell_defence_columns", config.spellColumns.toJson)]

def load (text : String) : Traced (Except ConfigError Config) :=
  match (Json.parse? text).bind ofJson? with
  | none => return .error .malformed
  | some config =>
    match config.validate with
    | .error error => return .error error
    | .ok () => do
      Traced.emit (.configured config.sunfireReduction config.spellColumns.size)
      return .ok config

/-- The usable configuration in a file with these contents, or without any that can be read;
contents that are not UTF-8 cannot. -/
def loadFile (path : String) (contents : Option ByteArray) :
    Traced (Except ConfigError Config) :=
  match contents.bind String.fromUTF8? with
  | none => return .error (.unreadable path)
  | some text => load text

end Config
end CombatAccuracy
