import CombatAccuracy.Proofs.DecimalKeys
/-!
# Overriding a spellbook's column

The members of a configuration's object of spells are inserted one after another, so a spell has
the column of its last member, or else that of its book, and each spell counts once however often
it is given (`Config.last_override_wins`).
-/
namespace CombatAccuracy
open Json (word ofWord? record)

namespace SpellColumns

theorem find?_foldl_insert (columns : SpellColumns) (entries : List (SpellId × BonusColumn))
    (spell : SpellId) :
    (entries.foldl (fun columns entry => columns.insert entry.1 entry.2) columns).find? spell =
      (entries.reverse.lookup spell).or (columns.find? spell) := by
  induction entries generalizing columns with
  | nil => rfl
  | cons entry entries ih =>
    have hinsert : (columns.insert entry.1 entry.2).find? spell =
        ([entry].lookup spell).or (columns.find? spell) := by
      rw [find?_insert]
      by_cases h : spell = entry.1
      · rw [if_pos h, h, List.lookup_cons_self, Option.some_or]
      · have hne : (spell == entry.1) = false := beq_eq_false_iff_ne.mpr h
        rw [if_neg h, List.lookup_cons, hne, List.lookup_nil, Option.none_or]
    rw [List.foldl_cons, ih, hinsert, List.reverse_cons, List.lookup_append, Option.or_assoc]

/-- Of several columns for one spell the last is found. -/
theorem find?_ofList (entries : List (SpellId × BonusColumn)) (spell : SpellId) :
    (ofList entries).find? spell = entries.reverse.lookup spell := by
  have hfold := find?_foldl_insert .empty entries spell
  have hempty : empty.find? spell = none := rfl
  rwa [hempty, Option.or_none] at hfold

theorem size_ofList (entries : List (SpellId × BonusColumn)) :
    (ofList entries).size = (entries.map Prod.fst).toFinset.card := by
  have hset : {spell | ((ofList entries).find? spell).isSome} =
      ((entries.map Prod.fst).toFinset : Set SpellId) := by
    ext spell
    simp [find?_ofList, List.lookup_isSome_iff]
  rw [size_eq_ncard, hset, Set.ncard_coe_finset]

/-- What a member tells: the spell that is its key has this column. -/
def Tells (member : Key × Json) (entry : SpellId × BonusColumn) : Prop :=
  member.1 = .plain entry.1.text ∧ ofWord? member.2 = some entry.2

theorem members?_eq_some_iff {members : List (Key × Json)}
    {entries : List (SpellId × BonusColumn)} :
    members? members = some entries ↔ List.Forall₂ Tells members entries := by
  induction members generalizing entries with
  | nil => simp [members?, eq_comm]
  | cons member members ih =>
    obtain ⟨key, value⟩ := member
    simp only [members?, Option.bind_eq_bind, Option.bind_eq_some_iff, SpellId.ofKey?_eq_some_iff,
      Option.some.injEq, ih]
    constructor
    · rintro ⟨spell, hkey, column, hvalue, others, hothers, rfl⟩
      exact .cons ⟨hkey, hvalue⟩ hothers
    · rintro (_ | ⟨⟨hkey, hvalue⟩, hothers⟩)
      exact ⟨_, hkey, _, hvalue, _, hothers, rfl⟩

/-- An object with these members, in this order and with repeats. -/
def written (members : List (String × BonusColumn)) : Json :=
  .object (members.map fun (text, column) => (Json.keyOfText text, word column))

theorem legible_written (members : List (String × BonusColumn)) :
    (written members).Legible := by
  rw [written, Json.Legible]
  induction members with
  | nil => trivial
  | cons member members ih =>
    have hkey : (Json.keyOfText member.1).text? = some member.1 := by
      unfold Json.keyOfText
      split <;> rfl
    exact ⟨by simp [hkey], Json.legible_word member.2, ih⟩

theorem members?_written_isSome_iff {members : List (String × BonusColumn)} :
    (members? (written members).members).isSome ↔ ∀ member ∈ members, SpellId.IsKey member.1 := by
  induction members with
  | nil => simp [written, Json.members, members?]
  | cons member members ih =>
    obtain ⟨text, column⟩ := member
    simp only [written, Json.members] at ih ⊢
    rw [List.map_cons, List.forall_mem_cons, ← ih, ← SpellId.ofKey?_keyOfText_isSome_iff]
    simp only [members?, Json.ofWord?_of_word]
    cases SpellId.ofKey? (Json.keyOfText text) with
    | none => simp
    | some spell =>
      cases members? (members.map fun (text, column) => (Json.keyOfText text, word column)) <;> simp

theorem keyOfText_text (spell : SpellId) : Json.keyOfText spell.text = .plain spell.text :=
  if_pos spell.text_all_isPlain

theorem members?_written_texts (entries : List (SpellId × BonusColumn)) :
    members? (written (entries.map fun (spell, column) => (spell.text, column))).members =
      some entries := by
  rw [members?_eq_some_iff, written, Json.members, List.map_map, List.forall₂_map_left_iff]
  refine List.forall₂_same.mpr ?_
  intro entry _
  exact ⟨keyOfText_text entry.1, Json.ofWord?_of_word entry.2⟩

end SpellColumns

namespace SpellbookColumns

theorem value?_of_ofJson? {json : Json} {fields : Fields} {columns : SpellbookColumns}
    (hfields : json.fields? layout.names = some fields) (h : ofJson? json = some columns)
    (book : Spellbook) :
    fields.value? (Vocabulary.word book) ofWord? (some .magic) = some (columns.get book) := by
  rw [ofJson?, Layout.read?_eq (by decide), hfields] at h
  simp only [layout, Layout.ofFields?, Option.bind_eq_bind, Option.bind_some,
    Option.bind_eq_some_iff, Option.some.injEq] at h
  obtain ⟨_, ⟨_, ⟨_, ⟨standard, hstandard, rfl⟩, ancients, hancients, rfl⟩, lunar, hlunar, rfl⟩,
    arceuus, harceuus, rfl⟩ := h
  cases book <;> assumption

/-- The columns of spellbooks of which some are configured. -/
def ofBooks (books : Spellbook → Option BonusColumn) : SpellbookColumns where
  standard := (books .standard).getD .magic
  ancients := (books .ancients).getD .magic
  lunar := (books .lunar).getD .magic
  arceuus := (books .arceuus).getD .magic

theorem get_ofBooks (books : Spellbook → Option BonusColumn) (book : Spellbook) :
    (ofBooks books).get book = (books book).getD .magic := by
  cases book <;> rfl

/-- A record of columns for some of the spellbooks. -/
def written (books : Spellbook → Option BonusColumn) : Json :=
  record ([
    ("standard", books .standard),
    ("ancients", books .ancients),
    ("lunar", books .lunar),
    ("arceuus", books .arceuus)].filterMap fun (name, column) =>
      column.map fun column => (name, word column))

theorem ofJson?_written (books : Spellbook → Option BonusColumn) :
    ofJson? (written books) = some (ofBooks books) := by
  rw [ofJson?, Layout.read?_eq (by decide), written, ofBooks]
  cases books .standard <;> cases books .ancients <;> cases books .lunar <;>
    cases books .arceuus <;>
    simp [Json.fields?_record, layout, Fields.value?_nil, Fields.value?_cons, Json.ofWord?_of_word]

theorem legible_written (books : Spellbook → Option BonusColumn) :
    (written books).Legible := by
  have hnames : ∀ name ∈ layout.names, name.toList.all Json.isPlain = true := by decide
  refine Json.legible_record ?_ ?_
  · intro name hname
    obtain ⟨field, hfield, rfl⟩ := List.mem_map.mp hname
    obtain ⟨⟨book, column⟩, hbook, hcolumn⟩ := List.mem_filterMap.mp hfield
    obtain ⟨column, -, rfl⟩ := Option.map_eq_some_iff.mp hcolumn
    have hname := List.mem_map_of_mem (f := Prod.fst) hbook
    exact hnames book hname
  · intro value hvalue
    obtain ⟨field, hfield, rfl⟩ := List.mem_map.mp hvalue
    obtain ⟨⟨book, column⟩, -, hcolumn⟩ := List.mem_filterMap.mp hfield
    obtain ⟨column, -, rfl⟩ := Option.map_eq_some_iff.mp hcolumn
    exact Json.legible_word column

end SpellbookColumns

namespace Config

/-- The column that a configuration's record gives for a spellbook, if it gives one. -/
def bookColumn? (fields : Fields) (book : Spellbook) : Option BonusColumn := do
  let columns ← fields.lookup "spellbook_defence_columns"
  let fields ← columns.fields? SpellbookColumns.layout.names
  fields.value? (Vocabulary.word book) ofWord? none

theorem get_of_value? {fields : Fields} {columns : SpellbookColumns}
    (h : fields.value? "spellbook_defence_columns" SpellbookColumns.ofJson? (some {}) =
      some columns)
    (book : Spellbook) : columns.get book = (bookColumn? fields book).getD .magic := by
  unfold Fields.value? at h
  split at h
  · next hlookup =>
    obtain rfl := Option.some.inj h
    rw [bookColumn?, hlookup]
    cases book <;> rfl
  · next json hlookup =>
    have hread := h
    rw [SpellbookColumns.ofJson?, Layout.read?_eq (by decide)] at hread
    obtain ⟨books, hbooks, -⟩ := Option.bind_eq_some_iff.mp hread
    have hbook := SpellbookColumns.value?_of_ofJson? hbooks h book
    simp only [bookColumn?, hlookup, hbooks, Option.bind_eq_bind, Option.bind_some]
    unfold Fields.value? at hbook ⊢
    split at hbook
    · exact (Option.some.inj hbook).symm
    · rw [hbook, Option.getD_some]

/-- What a read configuration looks up is told by the members of its record. -/
theorem spellColumn_of_ofJson? {json : Json} {fields : Fields} {members : List (Key × Json)}
    {config : Config} (hfields : json.fields? layout.names = some fields)
    (hmembers : fields.lookup "spell_defence_columns" = some (.object members))
    (h : ofJson? json = some config) :
    ∃ entries, List.Forall₂ SpellColumns.Tells members entries ∧
      config.spellColumns = .ofList entries ∧
      ∀ spell book, config.spellColumn spell book =
        (entries.reverse.lookup spell).getD ((bookColumn? fields book).getD .magic) := by
  rw [ofJson?, Layout.read?_eq (by decide), hfields] at h
  simp only [layout, Layout.ofFields?, Option.bind_eq_bind, Option.bind_some,
    Option.bind_eq_some_iff, Option.some.injEq] at h
  obtain ⟨_, ⟨_, ⟨reduction, -, rfl⟩, books, hbooks, rfl⟩, spells, hspells, rfl⟩ := h
  rw [Fields.value?, hmembers] at hspells
  obtain ⟨entries, hentries, rfl⟩ := Option.map_eq_some_iff.mp hspells
  refine ⟨entries, SpellColumns.members?_eq_some_iff.mp hentries, rfl, ?_⟩
  intro spell book
  rw [spellColumn, SpellColumns.find?_ofList, get_of_value? hbooks]

/-- The fields of a configuration with columns for some books and these members for spells. -/
def fieldsWith (reduction : Int32) (books : Spellbook → Option BonusColumn)
    (members : List (String × BonusColumn)) : Fields := [
  ("sunfire_defence_reduction", .int reduction.toInt),
  ("spellbook_defence_columns", SpellbookColumns.written books),
  ("spell_defence_columns", SpellColumns.written members)]

def written (reduction : Int32) (books : Spellbook → Option BonusColumn)
    (members : List (String × BonusColumn)) : Json :=
  record (fieldsWith reduction books members)

section Written
variable {reduction : Int32} {books : Spellbook → Option BonusColumn}
  {members : List (String × BonusColumn)}

theorem legible_written : (written reduction books members).Legible := by
  have hnames : ∀ name ∈ layout.names, name.toList.all Json.isPlain = true := by decide
  refine Json.legible_record hnames ?_
  simp only [fieldsWith, List.map_cons, List.map_nil, List.forall_mem_cons]
  exact ⟨Json.legible_int32 reduction, SpellbookColumns.legible_written books,
    SpellColumns.legible_written members, nofun⟩

theorem fields?_written :
    (written reduction books members).fields? layout.names =
      some (fieldsWith reduction books members) :=
  Json.fields?_record (by simp [fieldsWith]) layout.names

theorem read?_written : read? (Json.render (written reduction books members)) =
    (SpellColumns.members? (SpellColumns.written members).members).map fun entries => {
      sunfireReduction := reduction
      spellbookColumns := .ofBooks books
      spellColumns := .ofList entries } := by
  have hspells : SpellColumns.ofJson? (SpellColumns.written members) =
      (SpellColumns.members? (SpellColumns.written members).members).map .ofList := rfl
  rw [read?, Json.parse?_render _ legible_written, Option.bind_some, ofJson?,
    Layout.read?_eq (by decide), fields?_written, Option.bind_some, fieldsWith]
  simp only [layout, Layout.ofFields?, Fields.value?_cons, String.reduceEq, if_true, if_false,
    Json.int32?_toInt, SpellbookColumns.ofJson?_written, hspells, Option.bind_eq_bind,
    Option.bind_some]
  cases SpellColumns.members? (SpellColumns.written members).members <;> rfl

theorem value_load_written_iff :
    (load (Json.render (written reduction books members))).value = .error .malformed ↔
      ∃ member ∈ members, ¬SpellId.IsKey member.1 := by
  have hall := not_congr (@SpellColumns.members?_written_isSome_iff members)
  rw [Bool.not_eq_true, Option.isSome_eq_false_iff, Option.isNone_iff_eq_none] at hall
  rw [value_load_eq_malformed_iff, read?_written, Option.map_eq_none_iff, hall]
  simp only [not_forall, exists_prop]

theorem load_written (hnonneg : 0 ≤ reduction) (entries : List (SpellId × BonusColumn)) :
    ∃ config,
      load (Json.render (written reduction books
        (entries.map fun (spell, column) => (spell.text, column)))) = {
          value := .ok config
          events := [.configured reduction (entries.map Prod.fst).toFinset.card] } ∧
      ∀ spell book, config.spellColumn spell book =
        (entries.reverse.lookup spell).getD ((books book).getD .magic) := by
  let config : Config := {
    sunfireReduction := reduction
    spellbookColumns := .ofBooks books
    spellColumns := .ofList entries }
  have hread : read? (Json.render (written reduction books
      (entries.map fun (spell, column) => (spell.text, column)))) = some config := by
    rw [read?_written, SpellColumns.members?_written_texts, Option.map_some]
  refine ⟨config, ?_, ?_⟩
  · rw [load_of_nonneg hread hnonneg, ← SpellColumns.size_ofList]
  · intro spell book
    rw [spellColumn, SpellColumns.find?_ofList, SpellbookColumns.get_ofBooks]

end Written

/-- Whatever the members of a loaded configuration's object of spells, a spell is blocked with the
column of the last member for it, or else with its book's, which is magic by default, and the event
counts each spell once. Such members load just if their keys are canonical decimals of 32 bits, and
no spell has two keys. -/
theorem last_override_wins :
    (∀ (text : String) (fields : Fields) (members : List (Key × Json)) (config : Config),
      (Json.parse? text).bind (Json.fields? layout.names) = some fields →
      fields.lookup "spell_defence_columns" = some (.object members) →
      (load text).value = .ok config →
      ∃ entries, List.Forall₂ SpellColumns.Tells members entries ∧
        (∀ spell book, config.spellColumn spell book =
          (entries.reverse.lookup spell).getD ((bookColumn? fields book).getD .magic)) ∧
        (load text).events =
          [.configured config.sunfireReduction (entries.map Prod.fst).toFinset.card]) ∧
    (∀ (reduction : Int32) (books : Spellbook → Option BonusColumn),
      (∀ members : List (String × BonusColumn),
        (load (Json.render (written reduction books members))).value = .error .malformed ↔
          ∃ member ∈ members, ¬SpellId.IsKey member.1) ∧
      ∀ entries : List (SpellId × BonusColumn), 0 ≤ reduction → ∃ config,
        load (Json.render (written reduction books
          (entries.map fun (spell, column) => (spell.text, column)))) = {
            value := .ok config
            events := [.configured reduction (entries.map Prod.fst).toFinset.card] } ∧
        ∀ spell book, config.spellColumn spell book =
          (entries.reverse.lookup spell).getD ((books book).getD .magic)) ∧
    (∀ text, (SpellId.ofKey? (.plain text)).isSome ↔ SpellId.IsKey text) ∧
    ∀ key other spell, SpellId.ofKey? key = some spell → SpellId.ofKey? other = some spell →
      key = other := by
  refine ⟨?_, ?_, fun text => SpellId.ofKey?_isSome_iff, ?_⟩
  · intro text fields members config hfields hmembers hload
    have hread := ((value_load_eq_ok_iff text config).mp hload).1
    obtain ⟨json, hparse, hnamed⟩ := Option.bind_eq_some_iff.mp hfields
    rw [read?, hparse, Option.bind_some] at hread
    obtain ⟨entries, htells, hcolumns, hlooked⟩ := spellColumn_of_ofJson? hnamed hmembers hread
    refine ⟨entries, htells, hlooked, ?_⟩
    rw [events_load, hload, ← SpellColumns.size_ofList, ← hcolumns]
    rfl
  · intro reduction books
    refine ⟨fun members => value_load_written_iff, ?_⟩
    intro entries hnonneg
    exact load_written hnonneg entries
  · intro key other spell hkey hother
    rw [SpellId.ofKey?_eq_some_iff.mp hkey, SpellId.ofKey?_eq_some_iff.mp hother]

/-- Two spells, one of them given twice. -/
def overrides : List (SpellId × BonusColumn) :=
  [(⟨77⟩, .stab), (⟨5⟩, .ranged), (⟨77⟩, .crush)]

/-- Books of which only one is configured. -/
def ancientsOnly : Spellbook → Option BonusColumn
  | .ancients => some .slash
  | _ => none

def overrideMembers : List (String × BonusColumn) :=
  overrides.map fun (spell, column) => (spell.text, column)

def overrideText : String :=
  Json.render (written 3 ancientsOnly overrideMembers)

theorem last_override_wins_over_first : ∃ config fields entries,
    ((Json.parse? overrideText).bind (Json.fields? layout.names) = some fields ∧
      fields.lookup "spell_defence_columns" = some (SpellColumns.written overrideMembers) ∧
      (load overrideText).value = .ok config) ∧
    List.Forall₂ SpellColumns.Tells (SpellColumns.written overrideMembers).members entries ∧
    (config.spellColumn ⟨77⟩ .ancients = .crush ∧ config.spellColumn ⟨5⟩ .ancients = .ranged ∧
      config.spellColumn ⟨6⟩ .ancients = .slash ∧ config.spellColumn ⟨6⟩ .lunar = .magic) ∧
    (load overrideText).events = [.configured 3 2] := by
  obtain ⟨config, hload, hlooked⟩ := (last_override_wins.2.1 3 ancientsOnly).2 overrides (by decide)
  have hvalue : (load overrideText).value = .ok config := congrArg Traced.value hload
  have hfields : (Json.parse? overrideText).bind (Json.fields? layout.names) =
      some (fieldsWith 3 ancientsOnly overrideMembers) := by
    rw [overrideText, Json.parse?_render _ legible_written, Option.bind_some, fields?_written]
  obtain ⟨entries, htells, -, -⟩ :=
    last_override_wins.1 overrideText _ _ config hfields rfl hvalue
  exact ⟨config, _, entries, ⟨hfields, rfl, hvalue⟩, htells,
    ⟨hlooked _ _, hlooked _ _, hlooked _ _, hlooked _ _⟩, congrArg Traced.events hload⟩

end Config
end CombatAccuracy
