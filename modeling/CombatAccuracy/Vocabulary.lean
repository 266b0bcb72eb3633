/-!
# Vocabularies

A vocabulary is a finite type whose values are written as words. Its instance lists every value and
gives each a word of its own, so reading a word back (`ofWord?_word`) needs no proof per type.
-/
namespace CombatAccuracy

/-- A finite type whose values are written as words: `all` misses none, and no word is shared. -/
class Vocabulary (α : Type) where
  all : List α
  word : α → String
  mem_all : ∀ a, a ∈ all
  word_injective : ∀ a b, word a = word b → a = b

namespace Vocabulary
variable {α : Type} [Vocabulary α]

def ofWord? (w : String) : Option α :=
  all.find? (fun a => word a == w)

theorem ofWord?_word (a : α) : ofWord? (word a) = some a := by
  unfold ofWord?
  cases h : (all : List α).find? (fun b => word b == word a) with
  | none => exact absurd (List.find?_eq_none.mp h a (mem_all a)) (by simp)
  | some b => rw [word_injective b a (by simpa using List.find?_some h)]

/-- A word as the name of a type's value: every part that an underscore ends starts with a capital,
and the underscores are dropped (`long_range` is `LongRange`). -/
def titleCase (w : String) : String :=
  String.join ((w.splitOn "_").map String.capitalize)

end Vocabulary
end CombatAccuracy
