import CombatAccuracy.Codec.Snapshot
import CombatAccuracy.Proofs.Layouts
import CombatAccuracy.Proofs.Thinning
/-!
# Snapshots written sparsely

A snapshot may be written without the members that hold defaults, in any order, and among members
that its reader does not know; its four tables may be written so as well. All of that is still read
as the same snapshot, but a snapshot that gives a member twice, in itself or in one of its tables,
is not read at all (`Snapshot.sparse_read_back`).
-/
namespace CombatAccuracy
open Json (word ofWord? record int32? nullable? Thinned Told)

namespace ChannelLevels

theorem ofJson?_toJson (levels : ChannelLevels) : ofJson? levels.toJson = some levels := by
  rw [ofJson?, toJson, Layout.read?_record (by decide) (by simp)]
  simp [layout, Fields.value?_cons, Json.int32?_toInt]

def entries (levels : ChannelLevels) : List (String × Int32) :=
  [("melee", levels.melee), ("ranged", levels.ranged), ("magic", levels.magic)]

theorem ofJson?_of_thinned {levels : ChannelLevels} {json : Json}
    (h : Thinned Json.Unrevised (toJson {}) levels.toJson json) : ofJson? json = some levels := by
  have hnodup : (levels.entries.map Prod.fst).Nodup := by simp [entries]
  obtain ⟨fields, hfields, hnumber⟩ := Thinned.exists_numbers levels.entries h hnodup
  change json.fields? layout.names = some fields at hfields
  simp only [entries, List.forall_mem_cons] at hnumber
  rw [ofJson?, Layout.read?_eq (by decide), hfields]
  simp [layout, hnumber]

end ChannelLevels

namespace BonusTable

theorem ofJson?_toJson (table : BonusTable) : ofJson? table.toJson = some table := by
  rw [ofJson?, toJson, Layout.read?_record (by decide) (by simp)]
  simp [layout, Fields.value?_cons, Json.int32?_toInt]

def entries (table : BonusTable) : List (String × Int32) :=
  [("stab", table.stab), ("slash", table.slash), ("crush", table.crush), ("ranged", table.ranged),
    ("ranged_light", table.rangedLight), ("ranged_standard", table.rangedStandard),
    ("ranged_heavy", table.rangedHeavy), ("magic", table.magic)]

theorem ofJson?_of_thinned {table : BonusTable} {json : Json}
    (h : Thinned Json.Unrevised (toJson {}) table.toJson json) : ofJson? json = some table := by
  have hnodup : (table.entries.map Prod.fst).Nodup := by simp [entries]
  obtain ⟨fields, hfields, hnumber⟩ := Thinned.exists_numbers table.entries h hnodup
  change json.fields? layout.names = some fields at hfields
  simp only [entries, List.forall_mem_cons] at hnumber
  rw [ofJson?, Layout.read?_eq (by decide), hfields]
  simp [layout, hnumber]

end BonusTable

namespace Stance

theorem nodup_names (channel : Channel) : (layout channel).names.Nodup := by
  cases channel <;> decide

theorem ofJson?_of_tagged {room : Nat} {json body : Json} {channel : Channel}
    (h : json.tagged? "channel" room = some (Vocabulary.word channel, body)) :
    ofJson? room json =
      (body.variantFields? (layout channel).names).bind (layout channel).ofFields? := by
  simp only [ofJson?, h, Vocabulary.ofWord?_word, Option.bind_eq_bind, Option.bind_some]
  exact Layout.readVariant?_eq (nodup_names channel) body

theorem ofJson?_toJson (room : Nat) (stance : Stance) :
    ofJson? (room + 1) stance.toJson = some stance := by
  cases stance with
  | melee attackType style | ranged attackType style =>
    rw [toJson, word, ofJson?_of_tagged (Json.tagged?_record rfl (by simp)),
      Json.variantFields?_record (by simp)]
    simp [channel, layout, Fields.value?_cons, Json.ofHeldWord?_of_word]
  | magic style =>
    rw [toJson, word, ofJson?_of_tagged (Json.tagged?_record rfl (by simp)),
      Json.variantFields?_record (by simp)]
    simp [channel, layout, Fields.value?_cons, Json.ofHeldWord?_of_word]

end Stance

namespace Snapshot

/-- The fields that are tables of levels. -/
def levelTables : List String := ["offence", "defence"]

/-- The fields that are tables of bonuses. -/
def bonusTables : List String := ["offence_bonuses", "defence_bonuses"]

/-- What may stand for the value of a snapshot's member: a table may be written sparsely. -/
def Revised (key : Key) (value other : Json) : Prop :=
  if key ∈ levelTables.map Key.plain then
    Thinned Json.Unrevised (ChannelLevels.toJson {}) value other
  else if key ∈ bonusTables.map Key.plain then
    Thinned Json.Unrevised (BonusTable.toJson {}) value other
  else Json.Unrevised key value other

/-- The values that a snapshot written sparsely may have. -/
def Sparse (snapshot : Snapshot) : Json → Prop :=
  Thinned Revised (toJson {}) snapshot.toJson

def fieldNames : List String :=
  ["offence", "defence", "offence_bonuses", "defence_bonuses", "stance", "spellbook"]

theorem names_layout (room : Nat) : (layout room).names = fieldNames :=
  rfl

theorem nodup_names (room : Nat) : (layout room).names.Nodup := by
  rw [names_layout]
  decide

/-- Whether a known key is repeated, in a snapshot or in one of its tables. -/
def Repeated (json : Json) : Prop :=
  json.Repeats fieldNames ∨
    ∃ member ∈ json.members, ∃ table, member.1.text? = some table ∧
      (table ∈ levelTables ∧ member.2.Repeats ChannelLevels.layout.names ∨
        table ∈ bonusTables ∧ member.2.Repeats BonusTable.layout.names)

section Reading
variable {fields : Fields} {name : String}

theorem value?_levels (hname : name ∈ levelTables) {levels : ChannelLevels}
    (h : Told Revised (toJson {}) fields name levels.toJson) :
    fields.value? name ChannelLevels.ofJson? (some {}) = some levels := by
  have hdefault : (.plain name, ChannelLevels.toJson {}) ∈ (toJson {}).members := by
    simp only [levelTables, List.mem_cons, List.not_mem_nil, or_false] at hname
    rcases hname with rfl | rfl <;> simp [toJson, record, Json.members]
  refine h.value?_eq ChannelLevels.toJson (by simp) (Json.mem_members_record.mp hdefault)
    ChannelLevels.ofJson?_toJson ?_
  intro other hother
  rw [Revised, if_pos (List.mem_map_of_mem hname)] at hother
  exact ChannelLevels.ofJson?_of_thinned hother

theorem value?_bonuses (hname : name ∈ bonusTables) {table : BonusTable}
    (h : Told Revised (toJson {}) fields name table.toJson) :
    fields.value? name BonusTable.ofJson? (some {}) = some table := by
  have hdefault : (.plain name, BonusTable.toJson {}) ∈ (toJson {}).members := by
    simp only [bonusTables, List.mem_cons, List.not_mem_nil, or_false] at hname
    rcases hname with rfl | rfl <;> simp [toJson, record, Json.members]
  have hlevels : Key.plain name ∉ levelTables.map Key.plain := by
    simp only [bonusTables, List.mem_cons, List.not_mem_nil, or_false] at hname
    rcases hname with rfl | rfl <;> decide
  refine h.value?_eq BonusTable.toJson (by simp) (Json.mem_members_record.mp hdefault)
    BonusTable.ofJson?_toJson ?_
  intro other hother
  rw [Revised, if_neg hlevels, if_pos (List.mem_map_of_mem hname)] at hother
  exact BonusTable.ofJson?_of_thinned hother

end Reading

theorem ofJson?_of_sparse {snapshot : Snapshot} {json : Json} (h : snapshot.Sparse json)
    (room : Nat) : ofJson? (room + 2) json = some snapshot := by
  obtain ⟨fields, hfields, htold⟩ := h.exists_fields (by simp)
  change json.fields? fieldNames = some fields at hfields
  have hoffence := value?_levels (by decide) (htold "offence" snapshot.offence.toJson (by simp))
  have hdefence := value?_levels (by decide) (htold "defence" snapshot.defence.toJson (by simp))
  have hoffenceBonuses := value?_bonuses (by decide)
    (htold "offence_bonuses" snapshot.offenceBonuses.toJson (by simp))
  have hdefenceBonuses := value?_bonuses (by decide)
    (htold "defence_bonuses" snapshot.defenceBonuses.toJson (by simp))
  have hstance : fields.value? "stance" (Stance.ofJson? (room + 1)) (some .unarmed) =
      some snapshot.stance := by
    refine (htold "stance" snapshot.stance.toJson (by simp)).value?_eq Stance.toJson (by simp)
      (by simp) (Stance.ofJson?_toJson room) ?_
    intro other hother
    obtain rfl : other = snapshot.stance.toJson := hother
    exact Stance.ofJson?_toJson room snapshot.stance
  have hspellbook : fields.value? "spellbook" (nullable? ofWord?) (some none) =
      some snapshot.spellbook := by
    refine (htold "spellbook" (Json.ofOption word snapshot.spellbook) (by simp)).value?_eq
      (Json.ofOption word) (by simp) (by simp) (Json.nullable?_ofOption Json.ofWord?_of_word) ?_
    intro other hother
    obtain rfl : other = Json.ofOption word snapshot.spellbook := hother
    exact Json.nullable?_ofOption Json.ofWord?_of_word snapshot.spellbook
  rw [ofJson?, Layout.read?_eq (nodup_names (room + 2)), names_layout, hfields]
  simp [layout, hoffence, hdefence, hoffenceBonuses, hdefenceBonuses, hstance, hspellbook]

theorem ofJson?_of_repeated {json : Json} (h : Repeated json) (room : Nat) :
    ofJson? room json = none := by
  rcases h with hrepeats | ⟨member, hmember, table, htext, ⟨htable, hrepeats⟩ | ⟨htable, hrepeats⟩⟩
  · exact Layout.read?_of_repeats (nodup_names room) hrepeats
  · have hnone : ChannelLevels.ofJson? member.2 = none :=
      Layout.read?_of_repeats (by decide) hrepeats
    simp only [levelTables, List.mem_cons, List.not_mem_nil, or_false] at htable
    refine Layout.read?_of_rejects (nodup_names room) hmember htext ?_ ?_
    · rcases htable with rfl | rfl <;> simp [layout]
    · rcases htable with rfl | rfl <;> simp [layout, hnone]
  · have hnone : BonusTable.ofJson? member.2 = none :=
      Layout.read?_of_repeats (by decide) hrepeats
    simp only [bonusTables, List.mem_cons, List.not_mem_nil, or_false] at htable
    refine Layout.read?_of_rejects (nodup_names room) hmember htext ?_ ?_
    · rcases htable with rfl | rfl <;> simp [layout]
    · rcases htable with rfl | rfl <;> simp [layout, hnone]

/-- A snapshot is read back from whatever it is written as sparsely, with room for its stance, and
an object that repeats a known key is read as no snapshot at all. -/
theorem sparse_read_back :
    (∀ (snapshot : Snapshot) (json : Json), snapshot.Sparse json →
      ∀ room, ofJson? (room + 2) json = some snapshot) ∧
    ∀ json, Repeated json → ∀ room, ofJson? room json = none := by
  constructor
  · intro snapshot json hsparse room
    exact ofJson?_of_sparse hsparse room
  · intro json hrepeated room
    exact ofJson?_of_repeated hrepeated room

def caster : Snapshot where
  offence := { magic := 85 }
  spellbook := some .lunar

/-- The caster backwards, without any default but with a member of another name. -/
def sparseCaster : Json :=
  .object [
    (.escaped "note\n", .unreadable),
    (.plain "spellbook", .string "lunar"),
    (.plain "offence", .object [(.plain "magic", .int 85)])]

def repeatedCaster : Json :=
  .object [(.plain "offence", .object [(.plain "magic", .int 85), (.escaped "magic", .int 85)])]

theorem sparse_sparseCaster : caster.Sparse sparseCaster := by
  have hoffence : Thinned Json.Unrevised (ChannelLevels.toJson {}) caster.offence.toJson
      (.object [(.plain "magic", .int 85)]) := by
    refine .intro [(.plain "magic", .int 85)] [] _ (fun _ => .int 85)
      (.cons _ (.cons _ (.cons_cons _ .slnil))) ?_ (by simp [Json.Unrevised]) (by simp) (.refl _)
    intro member hmember hdropped
    simp only [caster, ChannelLevels.toJson, record, Json.members, List.map_cons, List.map_nil,
      List.mem_cons, List.not_mem_nil, or_false] at hmember hdropped ⊢
    rcases hmember with rfl | rfl | rfl
    · simp
    · simp
    · simp at hdropped
  refine .intro [(.plain "offence", caster.offence.toJson), (.plain "spellbook", .string "lunar")]
    [(.escaped "note\n", .unreadable)] _
    (fun key =>
      if key = .plain "offence" then .object [(.plain "magic", .int 85)] else .string "lunar")
    (.cons_cons _ (.cons _ (.cons _ (.cons _ (.cons _ (.cons_cons _ .slnil)))))) ?_ ?_ ?_ ?_
  · intro member hmember hdropped
    simp only [caster, toJson, record, Json.members, List.map_cons, List.map_nil, List.mem_cons,
      List.not_mem_nil, or_false] at hmember hdropped ⊢
    rcases hmember with rfl | rfl | rfl | rfl | rfl | rfl
    · simp at hdropped
    · simp
    · simp
    · simp
    · simp
    · simp [Json.ofOption, word, Vocabulary.word] at hdropped
  · simpa [Revised, levelTables, bonusTables, Json.Unrevised] using hoffence
  · simp [toJson, record, Json.members, Key.text?]
  · have hbackwards := List.reverse_perm [
      (Key.plain "offence", Json.object [(.plain "magic", .int 85)]),
      (.plain "spellbook", .string "lunar"), (.escaped "note\n", .unreadable)]
    simpa [Json.revise] using hbackwards

theorem repeated_repeatedCaster : Repeated repeatedCaster := by
  refine .inr ⟨_, List.mem_cons_self, "offence", rfl, .inl ⟨by decide, "magic", by decide, ?_⟩⟩
  decide

theorem caster_read_back :
    (caster.Sparse sparseCaster ∧ ofJson? Json.nestingLimit sparseCaster = some caster) ∧
    Repeated repeatedCaster ∧ ofJson? Json.nestingLimit repeatedCaster = none := by
  have hread : ofJson? (125 + 2) sparseCaster = some caster :=
    sparse_read_back.1 caster sparseCaster sparse_sparseCaster 125
  have hrefused : ofJson? Json.nestingLimit repeatedCaster = none :=
    sparse_read_back.2 repeatedCaster repeated_repeatedCaster Json.nestingLimit
  exact ⟨⟨sparse_sparseCaster, hread⟩, repeated_repeatedCaster, hrefused⟩

end Snapshot
end CombatAccuracy
