import CombatAccuracy.SpellColumns
/-!
# Configuration

Reference data as configured: a column for each spellbook, columns for single spells, which win over
their book's, and the reduction of a sunfire rune, which must not be negative.
-/
namespace CombatAccuracy

structure SpellbookColumns where
  standard : BonusColumn := .magic
  ancients : BonusColumn := .magic
  lunar : BonusColumn := .magic
  arceuus : BonusColumn := .magic
  deriving DecidableEq

def SpellbookColumns.get (columns : SpellbookColumns) : Spellbook → BonusColumn
  | .standard => columns.standard
  | .ancients => columns.ancients
  | .lunar => columns.lunar
  | .arceuus => columns.arceuus

/-- Reference data as configured. -/
structure Config where
  sunfireReduction : Int32 := 0
  spellbookColumns : SpellbookColumns := {}
  spellColumns : SpellColumns := .empty
  deriving DecidableEq

/-- Why a configuration cannot be had. -/
inductive ConfigError where
  | unreadable (path : String)
  | malformed
  | negativeReduction (reduction : Int32)
  deriving DecidableEq, Repr

/-- The error in words; the cause of the first two, if one is known, follows their colon. -/
def ConfigError.message : ConfigError → String
  | .unreadable path => "failed to read accuracy config " ++ path ++ ": "
  | .malformed => "invalid accuracy config: "
  | .negativeReduction reduction =>
    "sunfire defence reduction must not be negative (got " ++ toString reduction.toInt ++ ")"

namespace Config

/-- The column a spell is blocked with when it is cast from a spellbook. -/
def spellColumn (config : Config) (spell : SpellId) (book : Spellbook) : BonusColumn :=
  (config.spellColumns.find? spell).getD (config.spellbookColumns.get book)

/-- The configuration as the formulas look it up. -/
def reference (config : Config) : MagicReference where
  sunfireReduction := config.sunfireReduction
  spellColumn := config.spellColumn

def validate (config : Config) : Except ConfigError Unit :=
  if config.sunfireReduction < 0 then .error (.negativeReduction config.sunfireReduction)
  else .ok ()

end Config
end CombatAccuracy
