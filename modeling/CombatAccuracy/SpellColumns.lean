import CombatAccuracy.Spell
/-!
# Columns by spell

A finite map from spells to the columns they are blocked with. Its entries ascend by spell number,
so two maps that answer alike are equal, and one written out and read back is the same.
-/
namespace CombatAccuracy

/-- Columns for some spells. -/
structure SpellColumns where
  entries : List (SpellId × BonusColumn)
  ascending : entries.Pairwise fun a b => a.1.number < b.1.number
  deriving DecidableEq

namespace SpellColumns

def empty : SpellColumns where
  entries := []
  ascending := .nil

/-- Entries with one more, in the place of its spell's former one if it had any. -/
def insertEntry (spell : SpellId) (column : BonusColumn) :
    List (SpellId × BonusColumn) → List (SpellId × BonusColumn)
  | [] => [(spell, column)]
  | entry :: entries =>
    if spell.number < entry.1.number then (spell, column) :: entry :: entries
    else if spell = entry.1 then (spell, column) :: entries
    else entry :: insertEntry spell column entries

theorem mem_insertEntry {spell : SpellId} {column : BonusColumn} {entry : SpellId × BonusColumn}
    {entries : List (SpellId × BonusColumn)} (h : entry ∈ insertEntry spell column entries) :
    entry = (spell, column) ∨ entry ∈ entries := by
  induction entries with
  | nil => simpa [insertEntry] using h
  | cons first entries ih =>
    unfold insertEntry at h
    split at h
    · simpa using h
    · split at h
      · rcases List.mem_cons.mp h with rfl | h
        · exact .inl rfl
        · exact .inr (List.mem_cons_of_mem _ h)
      · rcases List.mem_cons.mp h with rfl | h
        · exact .inr List.mem_cons_self
        · exact (ih h).imp id (List.mem_cons_of_mem _)

theorem ascending_insertEntry (spell : SpellId) (column : BonusColumn)
    {entries : List (SpellId × BonusColumn)}
    (h : entries.Pairwise fun a b => a.1.number < b.1.number) :
    (insertEntry spell column entries).Pairwise fun a b => a.1.number < b.1.number := by
  induction entries with
  | nil => simp [insertEntry]
  | cons first entries ih =>
    have hfirst : ∀ entry ∈ entries, first.1.number < entry.1.number :=
      fun _ => List.rel_of_pairwise_cons h
    unfold insertEntry
    split
    · next hlt =>
      refine List.Pairwise.cons ?_ h
      intro entry hentry
      rcases List.mem_cons.mp hentry with rfl | hentry
      · exact hlt
      · exact UInt32.lt_trans hlt (hfirst _ hentry)
    · next hlt =>
      split
      · next heq =>
        refine List.Pairwise.cons ?_ h.of_cons
        intro entry hentry
        subst heq
        exact hfirst _ hentry
      · next hne =>
        refine List.Pairwise.cons ?_ (ih h.of_cons)
        intro entry hentry
        rcases mem_insertEntry hentry with rfl | hentry
        · refine UInt32.lt_of_le_of_ne (UInt32.not_lt.mp hlt) ?_
          intro heq
          exact hne (congrArg SpellId.mk heq.symm)
        · exact hfirst _ hentry

def insert (columns : SpellColumns) (spell : SpellId) (column : BonusColumn) : SpellColumns where
  entries := insertEntry spell column columns.entries
  ascending := ascending_insertEntry spell column columns.ascending

def find? (columns : SpellColumns) (spell : SpellId) : Option BonusColumn :=
  columns.entries.lookup spell

def size (columns : SpellColumns) : Nat :=
  columns.entries.length

/-- The map that columns written one after another leave. -/
def ofList (members : List (SpellId × BonusColumn)) : SpellColumns :=
  members.foldl (fun columns member => columns.insert member.1 member.2) .empty

theorem lookup_insertEntry (spell other : SpellId) (column : BonusColumn)
    (entries : List (SpellId × BonusColumn)) :
    (insertEntry spell column entries).lookup other =
      if other = spell then some column else entries.lookup other := by
  induction entries with
  | nil =>
    by_cases h : other = spell
    · simp [insertEntry, h]
    · have hspell : (other == spell) = false := beq_eq_false_iff_ne.mpr h
      simp [insertEntry, List.lookup_cons, h, hspell]
  | cons first entries ih =>
    obtain ⟨key, value⟩ := first
    by_cases h : other = spell
    · subst h
      unfold insertEntry
      split
      · simp
      · split
        · simp
        · next hne =>
          have hkey : (other == key) = false := beq_eq_false_iff_ne.mpr hne
          simp [List.lookup_cons, hkey, ih]
    · have hspell : (other == spell) = false := beq_eq_false_iff_ne.mpr h
      rw [if_neg h]
      unfold insertEntry
      split
      · simp [List.lookup_cons, hspell]
      · split
        · next heq =>
          obtain rfl : spell = key := heq
          simp [List.lookup_cons, hspell]
        · simp [List.lookup_cons, h, ih]

theorem find?_insert (columns : SpellColumns) (spell other : SpellId) (column : BonusColumn) :
    (columns.insert spell column).find? other =
      if other = spell then some column else columns.find? other :=
  lookup_insertEntry spell other column columns.entries

end SpellColumns
end CombatAccuracy
