import CombatAccuracy.Style
/-!
# Equipment bonuses

A bonus table has one signed 32-bit number in each of eight columns. Reading a column after writing
one is settled by `get_set`, and a table is known by its columns (`ext_get`), so nothing else has to
look inside one.
-/
namespace CombatAccuracy

/-- A column of a bonus table. Attacks with ranged weapons read `ranged`; the three weighted columns
tell apart how well a defence holds against each weight of ammunition. -/
inductive BonusColumn where
  | stab
  | slash
  | crush
  | ranged
  | rangedLight
  | rangedStandard
  | rangedHeavy
  | magic
  deriving DecidableEq, Repr

instance : Vocabulary BonusColumn where
  all := [.stab, .slash, .crush, .ranged, .rangedLight, .rangedStandard, .rangedHeavy, .magic]
  word
    | .stab => "stab"
    | .slash => "slash"
    | .crush => "crush"
    | .ranged => "ranged"
    | .rangedLight => "ranged_light"
    | .rangedStandard => "ranged_standard"
    | .rangedHeavy => "ranged_heavy"
    | .magic => "magic"
  mem_all a := by cases a <;> simp
  word_injective a b := by cases a <;> cases b <;> simp

def MeleeType.column : MeleeType → BonusColumn
  | .stab => .stab
  | .slash => .slash
  | .crush => .crush

def RangedType.column : RangedType → BonusColumn
  | .light => .rangedLight
  | .standard => .rangedStandard
  | .heavy => .rangedHeavy

structure BonusTable where
  stab : Int32 := 0
  slash : Int32 := 0
  crush : Int32 := 0
  ranged : Int32 := 0
  rangedLight : Int32 := 0
  rangedStandard : Int32 := 0
  rangedHeavy : Int32 := 0
  magic : Int32 := 0
  deriving DecidableEq

namespace BonusTable

def get (table : BonusTable) : BonusColumn → Int32
  | .stab => table.stab
  | .slash => table.slash
  | .crush => table.crush
  | .ranged => table.ranged
  | .rangedLight => table.rangedLight
  | .rangedStandard => table.rangedStandard
  | .rangedHeavy => table.rangedHeavy
  | .magic => table.magic

def set (table : BonusTable) (column : BonusColumn) (value : Int32) : BonusTable :=
  match column with
  | .stab => { table with stab := value }
  | .slash => { table with slash := value }
  | .crush => { table with crush := value }
  | .ranged => { table with ranged := value }
  | .rangedLight => { table with rangedLight := value }
  | .rangedStandard => { table with rangedStandard := value }
  | .rangedHeavy => { table with rangedHeavy := value }
  | .magic => { table with magic := value }

theorem get_set (table : BonusTable) (column other : BonusColumn) (value : Int32) :
    (table.set column value).get other = if other = column then value else table.get other := by
  cases column <;> cases other <;> rfl

/-- The table with these values in its columns. -/
def ofColumns (value : BonusColumn → Int32) : BonusTable where
  stab := value .stab
  slash := value .slash
  crush := value .crush
  ranged := value .ranged
  rangedLight := value .rangedLight
  rangedStandard := value .rangedStandard
  rangedHeavy := value .rangedHeavy
  magic := value .magic

@[simp] theorem get_ofColumns (value : BonusColumn → Int32) (column : BonusColumn) :
    (ofColumns value).get column = value column := by
  cases column <;> rfl

theorem ofColumns_get (table : BonusTable) : ofColumns table.get = table :=
  rfl

theorem ext_get {table other : BonusTable} (h : ∀ column, table.get column = other.get column) :
    table = other := by
  rw [← ofColumns_get table, funext h, ofColumns_get]

end BonusTable
end CombatAccuracy
