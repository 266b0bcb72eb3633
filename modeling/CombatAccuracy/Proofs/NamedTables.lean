import CombatAccuracy.Codec.Snapshot
import CombatAccuracy.Proofs.SpellOverrides
/-!
# Tables read by name

A table has one field for each value of a vocabulary and is looked up by these values. An object
that gives a table's fields by their words is read as the table that is looked up so: each word
leads to its own field, whatever other words are given and in whatever order
(`names_are_looked_up`).
-/
namespace CombatAccuracy

namespace Json
section Assigned
variable {α β : Type} [Vocabulary α]

/-- A named value for each word of a vocabulary that is assigned one. -/
def assigned (α : Type) [Vocabulary α] (write : β → Json) (values : String → Option β) : Fields :=
  (Vocabulary.all : List α).filterMap fun a =>
    (values (Vocabulary.word a)).map fun value => (Vocabulary.word a, write value)

variable {write : β → Json} {values : String → Option β}

theorem mem_assigned {field : String × Json} :
    field ∈ assigned α write values ↔
      ∃ a : α, ∃ value, values (Vocabulary.word a) = some value ∧
        field = (Vocabulary.word a, write value) := by
  simp only [assigned, List.mem_filterMap, Vocabulary.mem_all, true_and, Option.map_eq_some_iff]
  constructor
  · rintro ⟨a, value, hvalue, rfl⟩
    exact ⟨a, value, hvalue, rfl⟩
  · rintro ⟨a, value, hvalue, rfl⟩
    exact ⟨a, value, hvalue, rfl⟩

theorem names_assigned :
    (assigned α write values).map Prod.fst =
      ((Vocabulary.all : List α).map Vocabulary.word).filter fun name => (values name).isSome := by
  unfold assigned
  induction (Vocabulary.all : List α) with
  | nil => rfl
  | cons a others ih =>
    cases h : values (Vocabulary.word a) <;> simp [h, ih]

theorem nodup_names_assigned (hall : (Vocabulary.all : List α).Nodup) :
    ((assigned α write values).map Prod.fst).Nodup := by
  rw [names_assigned]
  exact (hall.map Vocabulary.word_injective).filter _

theorem lookup_assigned (hall : (Vocabulary.all : List α).Nodup) (a : α) :
    (assigned α write values).lookup (Vocabulary.word a) =
      (values (Vocabulary.word a)).map write := by
  cases hvalue : values (Vocabulary.word a) with
  | some value =>
    have hmem : (Vocabulary.word a, write value) ∈ assigned α write values :=
      mem_assigned.mpr ⟨a, value, hvalue, rfl⟩
    exact lookup_of_mem (occurrences_le_one (nodup_names_assigned hall) _) hmem
  | none =>
    rw [Option.map_none, List.lookup_eq_none_iff]
    intro field hfield
    obtain ⟨other, value, hother, rfl⟩ := mem_assigned.mp hfield
    rw [bne_iff_ne]
    intro heq
    rw [heq, hother] at hvalue
    cases hvalue

end Assigned

/-- Whether every object that assigns values to words is read as a table that is looked up so: each
word leads to its own value, or to the default if it has none. -/
def LooksUpNames {α β τ : Type} [Vocabulary α] (write : β → Json) (default : β)
    (read : Json → Option τ) (get : τ → α → β) : Prop :=
  ∀ (values : String → Option β) (members : List (Key × Json)),
    Gives members (assigned α write values) →
      ∃ table, read (.object members) = some table ∧
        ∀ a, get table a = (values (Vocabulary.word a)).getD default

theorem LooksUpNames.of_layout {α β τ : Type} [Vocabulary α] {write : β → Json} {default : β}
    {layout : Layout τ} {get : τ → α → β} {readValue : Json → Option β} (of : (α → β) → τ)
    (hnodup : layout.names.Nodup) (hall : (Vocabulary.all : List α).Nodup)
    (hvalue : ∀ value, readValue (write value) = some value)
    (hget : ∀ value a, get (of value) a = value a)
    (hread : ∀ fields value,
      (∀ a, fields.value? (Vocabulary.word a) readValue (some default) = some (value a)) →
        layout.ofFields? fields = some (of value)) :
    LooksUpNames write default layout.read? get := by
  intro values members hgives
  obtain ⟨fields, hfields, hlookup⟩ :=
    hgives.exists_fields (nodup_names_assigned hall) layout.names
  let value (a : α) : β := (values (Vocabulary.word a)).getD default
  have hmade : layout.ofFields? fields = some (of value) := by
    refine hread fields value ?_
    intro a
    rw [Fields.value?, hlookup, lookup_assigned hall]
    cases h : values (Vocabulary.word a) with
    | none => simp [value, h]
    | some given => simp [value, h, hvalue]
  refine ⟨of value, ?_, hget value⟩
  rw [Layout.read?_eq hnodup, hfields, Option.bind_some, hmade]

def ofInt32 (n : Int32) : Json :=
  .int n.toInt

end Json

theorem BonusTable.looksUpNames :
    Json.LooksUpNames Json.ofInt32 0 BonusTable.ofJson? BonusTable.get := by
  refine .of_layout ofColumns (by decide) (by decide) Json.int32?_toInt get_ofColumns ?_
  intro fields value h
  have hall : ∀ column ∈ (Vocabulary.all : List BonusColumn), _ := fun column _ => h column
  simp only [Vocabulary.all, Vocabulary.word, List.forall_mem_cons] at hall
  simp [layout, hall, ofColumns]

theorem ChannelLevels.looksUpNames :
    Json.LooksUpNames Json.ofInt32 0 ChannelLevels.ofJson? ChannelLevels.get := by
  refine .of_layout ofChannels (by decide) (by decide) Json.int32?_toInt get_ofChannels ?_
  intro fields value h
  have hall : ∀ channel ∈ (Vocabulary.all : List Channel), _ := fun channel _ => h channel
  simp only [Vocabulary.all, Vocabulary.word, List.forall_mem_cons] at hall
  simp [layout, hall, ofChannels]

theorem SpellbookColumns.looksUpNames :
    Json.LooksUpNames Json.word BonusColumn.magic SpellbookColumns.ofJson?
      SpellbookColumns.get := by
  refine .of_layout (fun value => ofBooks fun book => some (value book)) (by decide) (by decide)
    Json.ofWord?_of_word (fun _ => get_ofBooks _) ?_
  intro fields value h
  have hall : ∀ book ∈ (Vocabulary.all : List Spellbook), _ := fun book _ => h book
  simp only [Vocabulary.all, Vocabulary.word, List.forall_mem_cons] at hall
  simp [layout, hall, ofBooks]

/-- Bonuses, levels and the columns of spellbooks are looked up under the names they are given by:
whatever values are assigned to the words of columns, channels or spellbooks, an object of just
these, in any order, is read as a table that has each value at its word, and elsewhere zero or the
magic column. -/
theorem names_are_looked_up :
    Json.LooksUpNames Json.ofInt32 0 BonusTable.ofJson? BonusTable.get ∧
    Json.LooksUpNames Json.ofInt32 0 ChannelLevels.ofJson? ChannelLevels.get ∧
    Json.LooksUpNames Json.word BonusColumn.magic SpellbookColumns.ofJson? SpellbookColumns.get :=
  ⟨BonusTable.looksUpNames, ChannelLevels.looksUpNames, SpellbookColumns.looksUpNames⟩

/-- Heavy bolts are blocked well and stabs badly; other columns are not told. -/
def quilted : String → Option Int32
  | "stab" => some (-3)
  | "ranged_heavy" => some 12
  | _ => none

def lunarOnly : String → Option BonusColumn
  | "lunar" => some .crush
  | _ => none

theorem quilted_and_lunarOnly_are_looked_up :
    let armour := [(Key.plain "ranged_heavy", Json.int 12), (.escaped "stab", .int (-3))]
    let books := [(Key.plain "lunar", Json.string "crush")]
    (Json.Gives armour (Json.assigned BonusColumn Json.ofInt32 quilted) ∧
      ∃ table, BonusTable.ofJson? (.object armour) = some table ∧ table.get .rangedHeavy = 12 ∧
        table.get .stab = -3 ∧ table.get .ranged = 0) ∧
    Json.Gives books (Json.assigned Spellbook Json.word lunarOnly) ∧
      ∃ table, SpellbookColumns.ofJson? (.object books) = some table ∧ table.get .lunar = .crush ∧
        table.get .standard = .magic := by
  intro armour books
  have harmour : Json.Gives armour (Json.assigned BonusColumn Json.ofInt32 quilted) :=
    ⟨[("ranged_heavy", .int 12), ("stab", .int (-3))], rfl, .swap _ _ _⟩
  have hbooks : Json.Gives books (Json.assigned Spellbook Json.word lunarOnly) :=
    ⟨[("lunar", .string "crush")], rfl, .refl _⟩
  obtain ⟨table, htable, hget⟩ := names_are_looked_up.1 quilted armour harmour
  obtain ⟨columns, hcolumns, hbook⟩ := names_are_looked_up.2.2 lunarOnly books hbooks
  exact ⟨⟨harmour, table, htable, hget .rangedHeavy, hget .stab, hget .ranged⟩, hbooks, columns,
    hcolumns, hbook .lunar, hbook .standard⟩

end CombatAccuracy
