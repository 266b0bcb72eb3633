import CombatAccuracy.Codec.Config
import CombatAccuracy.Codec.Event
import CombatAccuracy.Proofs.JsonText
import CombatAccuracy.Proofs.Layouts
import Mathlib.Data.Set.Card
/-!
# Loading a configuration

A text is loaded as the configuration that it holds, unless that has a negative reduction, and the
event tells how many spells have a column of their own. What a configuration is written as holds
just that configuration, whatever its numbers and spells (`Config.read?_render`), so loading undoes
writing (`Config.load_gates_and_restores`).
-/
namespace CombatAccuracy
open Json (word ofWord? record integerText)

namespace SpellId

theorem text_toList (spell : SpellId) : spell.text.toList = integerText spell.number.toNat := by
  rw [text, Nat.toString_eq_ofList_toDigits, String.toList_ofList, integerText, if_neg (by omega)]
  rfl

theorem text_all_isPlain (spell : SpellId) : spell.text.toList.all Json.isPlain = true := by
  rw [List.all_eq_true]
  intro c hc
  rw [text_toList, integerText, if_neg (by omega)] at hc
  exact Json.isPlain_of_isDigit (Json.isDigit_of_mem_toDigits hc)

theorem ofKey?_text (spell : SpellId) : ofKey? (.plain spell.text) = some spell := by
  have hnumber : Json.number? (integerText spell.number.toNat) =
      some (.int spell.number.toNat, []) :=
    Json.legible_uint32 spell.number
  rw [← text_toList] at hnumber
  simp only [ofKey?, hnumber, Json.uint32?_toNat, Option.map_some]

end SpellId

namespace SpellColumns

theorem insertEntry_eq_append {spell : SpellId} {column : BonusColumn}
    {entries : List (SpellId × BonusColumn)}
    (h : ∀ entry ∈ entries, entry.1.number < spell.number) :
    insertEntry spell column entries = entries ++ [(spell, column)] := by
  induction entries with
  | nil => rfl
  | cons first entries ih =>
    have hlt : first.1.number < spell.number := h first List.mem_cons_self
    have hne : spell ≠ first.1 := by
      rintro rfl
      exact UInt32.lt_irrefl _ hlt
    rw [insertEntry, if_neg (UInt32.lt_asymm hlt), if_neg hne,
      ih fun entry hentry => h entry (List.mem_cons_of_mem _ hentry)]
    rfl

theorem entries_foldl_insert {columns : SpellColumns} {members : List (SpellId × BonusColumn)}
    (h : (columns.entries ++ members).Pairwise fun a b => a.1.number < b.1.number) :
    (members.foldl (fun columns member => columns.insert member.1 member.2) columns).entries =
      columns.entries ++ members := by
  induction members generalizing columns with
  | nil => rw [List.foldl_nil, List.append_nil]
  | cons member members ih =>
    have hinsert : (columns.insert member.1 member.2).entries = columns.entries ++ [member] := by
      refine insertEntry_eq_append ?_
      intro entry hentry
      exact (List.pairwise_append.mp h).2.2 entry hentry member List.mem_cons_self
    have happend : columns.entries ++ member :: members =
        (columns.insert member.1 member.2).entries ++ members := by
      rw [hinsert, List.append_assoc, List.singleton_append]
    rw [happend] at h ⊢
    exact ih h

theorem eq_of_entries_eq {columns others : SpellColumns}
    (h : columns.entries = others.entries) : columns = others := by
  obtain ⟨entries, ascending⟩ := columns
  obtain rfl : entries = others.entries := h
  rfl

theorem ofList_entries (columns : SpellColumns) : ofList columns.entries = columns := by
  have hentries : (ofList columns.entries).entries = columns.entries :=
    entries_foldl_insert columns.ascending
  obtain ⟨entries, ascending⟩ := columns
  exact eq_of_entries_eq hentries

theorem members?_written (entries : List (SpellId × BonusColumn)) :
    members? ((record (entries.map fun (spell, column) => (spell.text, word column))).members) =
      some entries := by
  induction entries with
  | nil => rfl
  | cons entry entries ih =>
    obtain ⟨spell, column⟩ := entry
    simp only [record, Json.members, List.map_cons] at ih ⊢
    simp only [members?, SpellId.ofKey?_text, Json.ofWord?_of_word, ih, Option.bind_eq_bind,
      Option.bind_some]

theorem ofJson?_toJson (columns : SpellColumns) : ofJson? columns.toJson = some columns := by
  have hmembers := members?_written columns.entries
  change (members? columns.toJson.members).map ofList = some columns
  rw [toJson, hmembers, Option.map_some, ofList_entries]

theorem size_eq_ncard (columns : SpellColumns) :
    columns.size = {spell | (columns.find? spell).isSome}.ncard := by
  have hnodup : (columns.entries.map Prod.fst).Nodup := by
    rw [List.nodup_iff_pairwise_ne, List.pairwise_map]
    refine columns.ascending.imp ?_
    intro a b hlt heq
    rw [heq] at hlt
    exact UInt32.lt_irrefl _ hlt
  have hset : {spell | (columns.find? spell).isSome} =
      ((columns.entries.map Prod.fst).toFinset : Set SpellId) := by
    ext spell
    simp [find?, List.lookup_isSome_iff]
  rw [hset, Set.ncard_coe_finset, List.toFinset_card_of_nodup hnodup, List.length_map, size]

end SpellColumns

namespace SpellbookColumns

theorem ofJson?_toJson (columns : SpellbookColumns) : ofJson? columns.toJson = some columns := by
  rw [ofJson?, toJson, Layout.read?_record (by decide) (by simp)]
  simp [layout, Fields.value?_cons, Json.ofWord?_of_word]

end SpellbookColumns

namespace Config

theorem ofJson?_toJson (config : Config) : ofJson? config.toJson = some config := by
  rw [ofJson?, toJson, Layout.read?_record (by decide) (by simp)]
  simp [layout, Fields.value?_cons, Json.int32?_toInt, SpellbookColumns.ofJson?_toJson,
    SpellColumns.ofJson?_toJson]

theorem legible_toJson (config : Config) : config.toJson.Legible := by
  have hbooks : config.spellbookColumns.toJson.Legible := by
    have hnames : ∀ name ∈ SpellbookColumns.layout.names, name.toList.all Json.isPlain = true := by
      decide
    exact Json.legible_record hnames (by simp [Json.legible_word])
  have hspells : config.spellColumns.toJson.Legible := by
    refine Json.legible_record ?_ ?_
    · intro name hname
      simp only [List.map_map, List.mem_map] at hname
      obtain ⟨⟨spell, column⟩, -, rfl⟩ := hname
      exact spell.text_all_isPlain
    · intro value hvalue
      simp only [List.map_map, List.mem_map] at hvalue
      obtain ⟨⟨spell, column⟩, -, rfl⟩ := hvalue
      exact Json.legible_word column
  have hnames : ∀ name ∈ layout.names, name.toList.all Json.isPlain = true := by decide
  exact Json.legible_record hnames (by simp [Json.legible_int32, hbooks, hspells])

/-- The configuration that a text holds, not yet checked. -/
def read? (text : String) : Option Config :=
  (Json.parse? text).bind ofJson?

/-- Writing a configuration loses nothing of it, not even a reduction that makes it unusable. -/
theorem read?_render (config : Config) : read? (Json.render config.toJson) = some config := by
  rw [read?, Json.parse?_render _ config.legible_toJson, Option.bind_some, ofJson?_toJson]

theorem validate_eq_ok_iff (config : Config) :
    config.validate = .ok () ↔ 0 ≤ config.sunfireReduction := by
  rw [validate, ← Int32.not_lt]
  split
  · next hneg => simp [hneg]
  · next hnonneg => simp [hnonneg]

section Loading
variable {text : String} {config : Config}

theorem load_of_none (h : read? text = none) : load text = { value := .error .malformed } := by
  rw [read?] at h
  rw [load, h]
  rfl

theorem load_of_neg (h : read? text = some config) (hneg : config.sunfireReduction < 0) :
    load text = { value := .error (.negativeReduction config.sunfireReduction) } := by
  rw [read?] at h
  have hinvalid : config.validate = .error (.negativeReduction config.sunfireReduction) :=
    if_pos hneg
  simp only [load, h, hinvalid]
  rfl

theorem load_of_nonneg (h : read? text = some config) (hnonneg : 0 ≤ config.sunfireReduction) :
    load text = {
      value := .ok config
      events := [.configured config.sunfireReduction config.spellColumns.size] } := by
  rw [read?] at h
  simp only [load, h, (validate_eq_ok_iff config).mpr hnonneg]
  rfl

theorem load_cases (text : String) :
    (read? text = none ∧ load text = { value := .error .malformed }) ∨
    (∃ config, read? text = some config ∧ config.sunfireReduction < 0 ∧
      load text = { value := .error (.negativeReduction config.sunfireReduction) }) ∨
    (∃ config, read? text = some config ∧ 0 ≤ config.sunfireReduction ∧
      load text = {
        value := .ok config
        events := [.configured config.sunfireReduction config.spellColumns.size] }) := by
  cases hread : read? text with
  | none => exact .inl ⟨rfl, load_of_none hread⟩
  | some config =>
    by_cases hneg : config.sunfireReduction < 0
    · exact .inr (.inl ⟨config, rfl, hneg, load_of_neg hread hneg⟩)
    · have hnonneg := Int32.not_lt.mp hneg
      exact .inr (.inr ⟨config, rfl, hnonneg, load_of_nonneg hread hnonneg⟩)

end Loading

theorem value_load_eq_malformed_iff (text : String) :
    (load text).value = .error .malformed ↔ read? text = none := by
  rcases load_cases text with ⟨hread, hload⟩ | ⟨config, hread, -, hload⟩ | ⟨config, hread, -, hload⟩
  · simp [hread, hload]
  · simp [hread, hload]
  · simp [hread, hload]

theorem value_load_eq_negative_iff (text : String) (reduction : Int32) :
    (load text).value = .error (.negativeReduction reduction) ↔
      reduction < 0 ∧ ∃ config, read? text = some config ∧ config.sunfireReduction = reduction := by
  rcases load_cases text with ⟨hread, hload⟩ | ⟨config, hread, hneg, hload⟩ |
    ⟨config, hread, hnonneg, hload⟩
  · simp [hread, hload]
  · rw [hread, hload]
    constructor
    · intro h
      obtain rfl : config.sunfireReduction = reduction := by simpa using h
      exact ⟨hneg, config, rfl, rfl⟩
    · rintro ⟨-, other, hother, rfl⟩
      obtain rfl := Option.some.inj hother
      rfl
  · rw [hread, hload]
    constructor
    · intro h
      nomatch h
    · rintro ⟨hneg, other, hother, rfl⟩
      obtain rfl := Option.some.inj hother
      exact absurd hneg (Int32.not_lt.mpr hnonneg)

theorem value_load_eq_ok_iff (text : String) (config : Config) :
    (load text).value = .ok config ↔ read? text = some config ∧ config.validate = .ok () := by
  rcases load_cases text with ⟨hread, hload⟩ | ⟨other, hread, hneg, hload⟩ |
    ⟨other, hread, hnonneg, hload⟩
  · simp [hread, hload]
  · rw [hread, hload]
    constructor
    · intro h
      nomatch h
    · rintro ⟨hother, hvalid⟩
      obtain rfl := Option.some.inj hother
      exact absurd hneg (Int32.not_lt.mpr ((validate_eq_ok_iff other).mp hvalid))
  · rw [hread, hload]
    constructor
    · intro h
      obtain rfl : other = config := by simpa using h
      exact ⟨rfl, (validate_eq_ok_iff other).mpr hnonneg⟩
    · rintro ⟨hother, -⟩
      obtain rfl := Option.some.inj hother
      rfl

theorem events_load (text : String) :
    (load text).events = (load text).value.toOption.toList.map fun config =>
      .configured config.sunfireReduction config.spellColumns.size := by
  rcases load_cases text with ⟨-, hload⟩ | ⟨config, -, -, hload⟩ | ⟨config, -, -, hload⟩ <;>
    rw [hload] <;> rfl

theorem loadFile_toUTF8 (path text : String) : loadFile path (some text.toUTF8) = load text := by
  have hdecoded : String.fromUTF8? text.toUTF8 = some text := dif_pos text.isValidUTF8
  rw [loadFile, Option.bind_some, hdecoded]

/-- A configuration is loaded from a text just if the text holds it and it is valid; its event alone
is traced then, and none otherwise. What a configuration is written as is loaded as that
configuration, or refused for its reduction. -/
theorem load_gates_and_restores :
    (∀ config : Config, config.validate = .ok () ↔ 0 ≤ config.sunfireReduction) ∧
    (∀ text,
      ((load text).value = .error .malformed ↔ read? text = none) ∧
      (∀ reduction, (load text).value = .error (.negativeReduction reduction) ↔
        reduction < 0 ∧ ∃ config, read? text = some config ∧ config.sunfireReduction = reduction) ∧
      (∀ config, (load text).value = .ok config ↔
        read? text = some config ∧ config.validate = .ok ()) ∧
      (load text).events.map Event.toJson = (load text).value.toOption.toList.map (fun config =>
        record [
          ("level", .string "DEBUG"),
          ("message", .string "Loaded accuracy config"),
          ("sunfire_defence_reduction", .int config.sunfireReduction.toInt),
          ("spell_overrides", .int {spell | (config.spellColumns.find? spell).isSome}.ncard)]) ∧
      ∀ path, loadFile path (some text.toUTF8) = load text) ∧
    ∀ config : Config, (load (Json.render config.toJson)).value =
      if config.sunfireReduction < 0 then .error (.negativeReduction config.sunfireReduction)
      else .ok config := by
  refine ⟨validate_eq_ok_iff, ?_, ?_⟩
  · intro text
    refine ⟨value_load_eq_malformed_iff text, value_load_eq_negative_iff text,
      value_load_eq_ok_iff text, ?_, fun path => loadFile_toUTF8 path text⟩
    rw [events_load, List.map_map]
    refine List.map_congr_left ?_
    intro config _
    simp only [← SpellColumns.size_eq_ncard]
    rfl
  · intro config
    split
    · next hneg => rw [load_of_neg config.read?_render hneg]
    · next hnonneg => rw [load_of_nonneg config.read?_render (Int32.not_lt.mp hnonneg)]

end Config
end CombatAccuracy
