import CombatAccuracy.Codec.Attack
import CombatAccuracy.Proofs.JsonText
import CombatAccuracy.Proofs.Sources
import CombatAccuracy.Proofs.SparseSnapshot
import CombatAccuracy.Proofs.TaggedRecords
/-!
# Stances and attacks read back

A stance and an attack are read back from what they are written as, and from its text if the
attack's multiplier is read back from its own. A stance and a multi-style attack, which are tagged
records, are also read from whatever their records are reshaped to, but not from an object that
repeats its tag or a field of its variant (`stances_and_attacks_read_back`).
-/
namespace CombatAccuracy
open Json (word ofHeldWord? ofWord? record ofOption nullable? Reshaped)

/-- A record that repeats its tag or a field of its variant is not read, whatever its variants'
layouts are. -/
theorem Layout.readVariant?_of_repeatsTagged {α ν : Type} [Vocabulary ν] {layout : ν → Layout α}
    {tag : String} {json : Json} (hnodup : ∀ variant, (tag :: (layout variant).names).Nodup)
    (h : json.RepeatsTagged tag fun variant => (layout variant).names) (room : Nat) :
    (do
      let (name, body) ← json.tagged? tag room
      let variant ← (Vocabulary.ofWord? name : Option ν)
      (layout variant).readVariant? body) = none := by
  simp only [Option.bind_eq_bind, Option.bind_eq_none_iff]
  rintro ⟨name, body⟩ htagged variant hvariant
  have hfresh : ∀ variant, tag ∉ (layout variant).names :=
    fun variant => (List.nodup_cons.mp (hnodup variant)).1
  have hfields := Json.variantFields?_of_repeatsTagged h hfresh htagged hvariant
  rw [readVariant?_eq (List.nodup_cons.mp (hnodup variant)).2, hfields, Option.bind_none]

namespace WeaponAttack
variable {τ σ : Type} [Vocabulary τ] [Vocabulary σ]

theorem ofJson?_toJson (attack : WeaponAttack τ σ) : ofJson? attack.toJson = some attack := by
  rw [ofJson?, toJson, Layout.read?_record (by simp [layout]) (by simp)]
  simp [layout, Fields.value?_cons, Json.nullable?_ofOption Json.ofWord?_of_word, Json.float?]

theorem legible_toJson {attack : WeaponAttack τ σ} (h : (Json.double attack.multiplier).ReadsBack) :
    attack.toJson.Legible :=
  Json.legible_record (by simp; decide) (by simp [Json.legible_ofOption, Json.Legible, h])

end WeaponAttack

namespace SpellId

theorem ofJson?_toJson (spell : SpellId) : ofJson? spell.toJson = some spell := by
  rw [ofJson?, toJson, Json.uint32?_toNat, Option.map_some]

theorem legible_toJson (spell : SpellId) : spell.toJson.Legible :=
  Json.legible_uint32 spell.number

end SpellId

namespace SpellCast

theorem ofJson?_toJson (cast : SpellCast) : ofJson? cast.toJson = some cast := by
  rw [ofJson?, toJson, Layout.read?_record (by decide) (by simp)]
  simp [layout, Fields.value?_cons, SpellId.ofJson?_toJson,
    Json.nullable?_ofOption Json.ofWord?_of_word, Json.bool?]

theorem legible_toJson (cast : SpellCast) : cast.toJson.Legible :=
  Json.legible_record (by simp; decide)
    (by simp [SpellId.legible_toJson, Json.legible_ofOption, Json.Legible])

end SpellCast

namespace StaffAttack

theorem ofJson?_toJson (attack : StaffAttack) : ofJson? attack.toJson = some attack := by
  rw [ofJson?, toJson, Layout.read?_record (by simp [layout]) (by simp)]
  simp [layout, Fields.value?_cons, Json.nullable?_ofOption Json.ofWord?_of_word, Json.float?]

theorem legible_toJson {attack : StaffAttack} (h : (Json.double attack.multiplier).ReadsBack) :
    attack.toJson.Legible :=
  Json.legible_record (by simp; decide) (by simp [Json.legible_ofOption, Json.Legible, h])

end StaffAttack

namespace MagicAttack

theorem ofJson?_variant {name : String} {body : Json} (hbody : body ≠ .null) :
    ofJson? (record [(name, body)]) =
      match name with
      | "spell" => (SpellCast.ofJson? body).map .spell
      | "staff" => (StaffAttack.ofJson? body).map .staff
      | _ => none := by
  have hword : (record [(name, body)]).word? = none := by
    simp [record, Json.word?, hbody]
  rw [ofJson?, hword]
  rfl

theorem ofJson?_toJson (attack : MagicAttack) : ofJson? attack.toJson = some attack := by
  cases attack with
  | spell cast =>
    rw [toJson, ofJson?_variant (by simp [SpellCast.toJson, record]), SpellCast.ofJson?_toJson]
    rfl
  | staff attack =>
    rw [toJson, ofJson?_variant (by simp [StaffAttack.toJson, record]), StaffAttack.ofJson?_toJson]
    rfl
  | innate => rfl

theorem legible_toJson {attack : MagicAttack}
    (h : ∀ multiplier ∈ (Attack.magic attack).namedMultiplier,
      (Json.double multiplier).ReadsBack) :
    attack.toJson.Legible := by
  cases attack with
  | spell cast => exact Json.legible_variant (by decide) cast.legible_toJson
  | staff attack => exact Json.legible_variant (by decide) (StaffAttack.legible_toJson (h _ rfl))
  | innate => trivial

end MagicAttack

namespace Stance

/-- The fields of a stance beside its channel. -/
def fieldNames (channel : Channel) : List String :=
  (layout channel).names

theorem ofJson?_of_reshaped {stance : Stance} {json : Json}
    (h : Reshaped [] stance.toJson json) (room : Nat) :
    ofJson? (room + 1) json = some stance := by
  cases stance with
  | melee attackType style | ranged attackType style =>
    replace h : Reshaped [] (record (("channel", .string _) ::
      [("attack_type", word attackType), ("attack_style", word style)])) json := h
    obtain ⟨fields, htagged, hvariant, hfound⟩ :=
      h.exists_fields (by simp) (by simp [word, Json.fits]) room
    simp only [List.forall_mem_cons, List.map_cons, List.map_nil] at hfound hvariant
    have htype := hfound.1.value?_heldWord
    have hstyle := hfound.2.1.value?_heldWord
    simp [ofJson?_of_tagged htagged, channel, layout, hvariant, htype, hstyle]
  | magic style =>
    replace h : Reshaped [] (record (("channel", .string _) ::
      [("attack_style", word style)])) json := h
    obtain ⟨fields, htagged, hvariant, hfound⟩ :=
      h.exists_fields (by simp) (by simp [word, Json.fits]) room
    simp only [List.forall_mem_cons, List.map_cons, List.map_nil] at hfound hvariant
    have hstyle := hfound.1.value?_heldWord
    simp [ofJson?_of_tagged htagged, channel, layout, hvariant, hstyle]

theorem ofJson?_of_repeatsTagged {json : Json} (h : json.RepeatsTagged "channel" fieldNames)
    (room : Nat) : ofJson? room json = none := by
  refine Layout.readVariant?_of_repeatsTagged ?_ h room
  intro channel
  cases channel <;> decide

theorem legible_toJson (stance : Stance) : stance.toJson.Legible := by
  cases stance with
  | melee attackType style | ranged attackType style | magic style =>
    exact Json.legible_record (by simp; decide) (by simp [Json.legible_word])

/-- The stance that a text holds. -/
def read? (text : String) : Option Stance :=
  (Json.parse? text).bind (ofJson? Json.nestingLimit)

theorem read?_render (stance : Stance) : read? (Json.render stance.toJson) = some stance := by
  rw [read?, Json.parse?_render _ stance.legible_toJson, Option.bind_some]
  exact ofJson?_toJson 126 stance

end Stance

namespace MultiStyleAttack

/-- The fields that a multi-style attack may be without. -/
def optionalFields : List String := ["attack_type", "attack_style", "block_type"]

/-- The fields of a multi-style attack beside its combination. -/
def fieldNames (combo : MultiStyle) : List String :=
  (layout combo).names

theorem nodup_names (combo : MultiStyle) : (layout combo).names.Nodup := by
  cases combo <;> decide

theorem ofJson?_of_tagged {room : Nat} {json body : Json} {combo : MultiStyle}
    (h : json.tagged? "combo" room = some (Vocabulary.word combo, body)) :
    ofJson? room json =
      (body.variantFields? (layout combo).names).bind (layout combo).ofFields? := by
  simp only [ofJson?, h, Vocabulary.ofWord?_word, Option.bind_eq_bind, Option.bind_some]
  exact Layout.readVariant?_eq (nodup_names combo) body

theorem ofJson?_of_reshaped {attack : MultiStyleAttack} {json : Json}
    (h : Reshaped optionalFields attack.toJson json) (room : Nat) :
    ofJson? (room + 1) json = some attack := by
  cases attack with
  | magicalMelee attackType style multiplier | magicalRanged attackType style multiplier =>
    replace h : Reshaped optionalFields (record (("combo", .string _) ::
      [("attack_type", ofOption word attackType), ("attack_style", ofOption word style),
        ("special_multiplier", .double multiplier)])) json := h
    obtain ⟨fields, htagged, hvariant, hfound⟩ :=
      h.exists_fields (by simp) (by simp [Json.fits_ofOption, Json.fits]) room
    simp only [List.forall_mem_cons, List.map_cons, List.map_nil] at hfound hvariant
    have htype := hfound.1.value?_nullable
    have hstyle := hfound.2.1.value?_nullable
    have hmultiplier := hfound.2.2.1.value?_eq Json.noConfusion Json.float?
    simp [ofJson?_of_tagged htagged, combo, layout, hvariant, htype, hstyle,
      hmultiplier, Json.float?]
  | rangedMelee attackType style blockType multiplier =>
    replace h : Reshaped optionalFields (record (("combo", .string _) ::
      [("attack_type", ofOption word attackType), ("attack_style", ofOption word style),
        ("block_type", ofOption word blockType), ("special_multiplier", .double multiplier)]))
      json := h
    obtain ⟨fields, htagged, hvariant, hfound⟩ :=
      h.exists_fields (by simp) (by simp [Json.fits_ofOption, Json.fits]) room
    simp only [List.forall_mem_cons, List.map_cons, List.map_nil] at hfound hvariant
    have htype := hfound.1.value?_nullable
    have hstyle := hfound.2.1.value?_nullable
    have hblock := hfound.2.2.1.value?_nullable
    have hmultiplier := hfound.2.2.2.1.value?_eq Json.noConfusion Json.float?
    simp [ofJson?_of_tagged htagged, combo, layout, hvariant, htype, hstyle,
      hblock, hmultiplier, Json.float?]
  | rangedMagic style blockType multiplier =>
    replace h : Reshaped optionalFields (record (("combo", .string _) ::
      [("attack_style", ofOption word style), ("block_type", ofOption word blockType),
        ("special_multiplier", .double multiplier)])) json := h
    obtain ⟨fields, htagged, hvariant, hfound⟩ :=
      h.exists_fields (by simp) (by simp [Json.fits_ofOption, Json.fits]) room
    simp only [List.forall_mem_cons, List.map_cons, List.map_nil] at hfound hvariant
    have hstyle := hfound.1.value?_nullable
    have hblock := hfound.2.1.value?_nullable
    have hmultiplier := hfound.2.2.1.value?_eq Json.noConfusion Json.float?
    simp [ofJson?_of_tagged htagged, combo, layout, hvariant, hstyle, hblock,
      hmultiplier, Json.float?]

theorem ofJson?_toJson (room : Nat) (attack : MultiStyleAttack) :
    ofJson? (room + 1) attack.toJson = some attack := by
  refine ofJson?_of_reshaped ?_ room
  cases attack <;> exact .refl _ (by simp)

theorem ofJson?_of_repeatsTagged {json : Json} (h : json.RepeatsTagged "combo" fieldNames)
    (room : Nat) : ofJson? room json = none := by
  refine Layout.readVariant?_of_repeatsTagged ?_ h room
  intro combo
  cases combo <;> decide

theorem legible_toJson {attack : MultiStyleAttack}
    (h : ∀ multiplier ∈ (Attack.multiStyle attack).namedMultiplier,
      (Json.double multiplier).ReadsBack) :
    attack.toJson.Legible := by
  cases attack with
  | magicalMelee attackType style multiplier | magicalRanged attackType style multiplier
  | rangedMelee attackType style blockType multiplier | rangedMagic style blockType multiplier =>
    have hmultiplier := h multiplier rfl
    exact Json.legible_record (by simp; decide)
      (by simp [Json.legible_word, Json.legible_ofOption, Json.Legible, hmultiplier])

end MultiStyleAttack

namespace Attack

theorem ofJson?_toJson (room : Nat) (attack : Attack) :
    ofJson? (room + 2) attack.toJson = some attack := by
  cases attack with
  | melee attack | ranged attack | magic attack | multiStyle attack =>
    simp [ofJson?, toJson, Json.variant?_record, attackClass, Vocabulary.ofWord?_word,
      attack.ofJson?_toJson]

theorem legible_toJson {attack : Attack}
    (h : ∀ multiplier ∈ attack.namedMultiplier, (Json.double multiplier).ReadsBack) :
    attack.toJson.Legible := by
  have hclass : (Vocabulary.word attack.attackClass).toList.all Json.isPlain = true := by
    cases attack.attackClass <;> decide
  cases attack with
  | melee attack | ranged attack =>
    exact Json.legible_variant hclass (attack.legible_toJson (h _ rfl))
  | magic attack | multiStyle attack => exact Json.legible_variant hclass (attack.legible_toJson h)

/-- The attack that a text holds. -/
def read? (text : String) : Option Attack :=
  (Json.parse? text).bind (ofJson? Json.nestingLimit)

theorem read?_render {attack : Attack}
    (h : ∀ multiplier ∈ attack.namedMultiplier, (Json.double multiplier).ReadsBack) :
    read? (Json.render attack.toJson) = some attack := by
  rw [read?, Json.parse?_render _ (legible_toJson h), Option.bind_some]
  exact ofJson?_toJson 125 attack

end Attack

/-- Stances and attacks are read back from what they are written as, with room for it, and also from
its text, an attack if its multiplier is read back from its own text. The tagged ones are read from
whatever their records are reshaped to, and not from an object that repeats its tag or a field of
its variant. -/
theorem stances_and_attacks_read_back :
    (∀ (stance : Stance) (room : Nat), Stance.ofJson? (room + 1) stance.toJson = some stance) ∧
    (∀ (attack : Attack) (room : Nat), Attack.ofJson? (room + 2) attack.toJson = some attack) ∧
    (∀ stance : Stance, Stance.read? (Json.render stance.toJson) = some stance) ∧
    (∀ attack : Attack,
      (∀ multiplier ∈ attack.namedMultiplier, (Json.double multiplier).ReadsBack) →
        Attack.read? (Json.render attack.toJson) = some attack) ∧
    (∀ (stance : Stance) (json : Json), Reshaped [] stance.toJson json →
      ∀ room, Stance.ofJson? (room + 1) json = some stance) ∧
    (∀ (attack : MultiStyleAttack) (json : Json),
      Reshaped MultiStyleAttack.optionalFields attack.toJson json →
      ∀ room, MultiStyleAttack.ofJson? (room + 1) json = some attack) ∧
    (∀ json : Json, json.RepeatsTagged "channel" Stance.fieldNames →
      ∀ room, Stance.ofJson? room json = none) ∧
    ∀ json : Json, json.RepeatsTagged "combo" MultiStyleAttack.fieldNames →
      ∀ room, MultiStyleAttack.ofJson? room json = none := by
  refine ⟨?_, ?_, Stance.read?_render, ?_, ?_, ?_, ?_, ?_⟩
  · intro stance room
    exact Stance.ofJson?_toJson room stance
  · intro attack room
    exact Attack.ofJson?_toJson room attack
  · intro attack hmultiplier
    exact Attack.read?_render hmultiplier
  · intro stance json hreshaped room
    exact Stance.ofJson?_of_reshaped hreshaped room
  · intro attack json hreshaped room
    exact MultiStyleAttack.ofJson?_of_reshaped hreshaped room
  · intro json hrepeats room
    exact Stance.ofJson?_of_repeatsTagged hrepeats room
  · intro json hrepeats room
    exact MultiStyleAttack.ofJson?_of_repeatsTagged hrepeats room

namespace Stance

def distant : Stance := .magic .longRange

/-- The distant stance backwards, with a field of other channels. -/
def turnedDistant : Json :=
  .object [
    (.plain "attack_type", .string "stab"),
    (.plain "attack_style", .string "long_range"),
    (.plain "channel", .string "magic")]

def twiceTagged : Json :=
  .object [
    (.plain "channel", .string "magic"),
    (.plain "attack_style", .string "long_range"),
    (.escaped "channel", .string "melee")]

theorem reshaped_turnedDistant : Reshaped [] distant.toJson turnedDistant := by
  refine .intro [("channel", .string "magic"), ("attack_style", .string "long_range")]
    [(.plain "attack_type", .string "stab")] (by simp [distant]) (.refl _) ?_
    (by simp [distant, Key.text?]) (List.reverse_perm turnedDistant.members).symm
  intro field hfield hdropped
  exact absurd hfield hdropped

theorem repeatsTagged_twiceTagged : twiceTagged.RepeatsTagged "channel" fieldNames :=
  .inl ⟨"channel", List.mem_singleton_self _, by decide⟩

end Stance

namespace MultiStyleAttack

/-- A blow that crushes and is warded as magic. -/
def crushingBlow : MultiStyleAttack := .magicalMelee (some .crush) none 1.25

/-- The blow backwards, without a style but with a field of other combinations. -/
def turnedBlow : Json :=
  .object [
    (.plain "block_type", .string "heavy"),
    (.plain "special_multiplier", .double 1.25),
    (.plain "attack_type", .string "crush"),
    (.plain "combo", .string "magical_melee")]

def repeatedBlow : Json :=
  .object [
    (.plain "attack_type", .string "crush"),
    (.plain "special_multiplier", .double 1.25),
    (.plain "combo", .string "magical_melee"),
    (.escaped "attack_type", .string "crush")]

theorem reshaped_turnedBlow : Reshaped optionalFields crushingBlow.toJson turnedBlow := by
  refine .intro
    [("combo", .string "magical_melee"), ("attack_type", .string "crush"),
      ("special_multiplier", .double 1.25)]
    [(.plain "block_type", .string "heavy")] (by simp [crushingBlow])
    (.cons_cons _ (.cons_cons _ (.cons _ (.cons_cons _ .slnil)))) ?_
    (by simp [crushingBlow, Key.text?]) (List.reverse_perm turnedBlow.members).symm
  intro field hfield hdropped
  simp only [crushingBlow, List.mem_cons, List.not_mem_nil, or_false, not_or] at hfield hdropped
  rcases hfield with rfl | rfl | rfl | rfl
  · exact absurd rfl hdropped.1
  · exact absurd rfl hdropped.2.1
  · exact ⟨by decide, rfl⟩
  · exact absurd rfl hdropped.2.2

theorem repeatsTagged_repeatedBlow : repeatedBlow.RepeatsTagged "combo" fieldNames := by
  refine .inr ⟨.magicalMelee, ⟨(.plain "combo", .string "magical_melee"), ?_, rfl, rfl⟩,
    "attack_type", by decide, by decide⟩
  simp [repeatedBlow, Json.members]

end MultiStyleAttack

theorem readsBack_crushingBlow : (Json.double 1.25).ReadsBack := by
  have htext : Json.chars (.double 1.25) = ['1', '.', '2', '5'] := by
    rw [Json.chars]
    decide +kernel
  have hquotient : Float.ofNat 125 / Json.powerOfTen 2 = 1.25 := by decide +kernel
  have hread : Json.timesPowerOfTen? (Float.ofNat 125) (-2) = some 1.25 := by
    change some (Json.overPowerOfTen (Float.ofNat 125) 2) = some 1.25
    rw [Json.overPowerOfTen, if_pos (by decide), hquotient]
  change Json.number? _ = _
  rw [htext]
  change some (Json.ofDecimal false 125 (-2), []) = _
  rw [Json.ofDecimal, hread]
  rfl

theorem distant_and_crushingBlow_read_back :
    ((Json.double 1.25).ReadsBack ∧
      Attack.read? (Json.render (Attack.multiStyle .crushingBlow).toJson) =
        some (.multiStyle .crushingBlow)) ∧
    (Reshaped [] Stance.distant.toJson Stance.turnedDistant ∧
      Stance.ofJson? Json.nestingLimit Stance.turnedDistant = some .distant) ∧
    (Reshaped MultiStyleAttack.optionalFields MultiStyleAttack.crushingBlow.toJson
        MultiStyleAttack.turnedBlow ∧
      MultiStyleAttack.ofJson? Json.nestingLimit MultiStyleAttack.turnedBlow =
        some .crushingBlow) ∧
    (Stance.twiceTagged.RepeatsTagged "channel" Stance.fieldNames ∧
      Stance.ofJson? Json.nestingLimit Stance.twiceTagged = none) ∧
    MultiStyleAttack.repeatedBlow.RepeatsTagged "combo" MultiStyleAttack.fieldNames ∧
      MultiStyleAttack.ofJson? Json.nestingLimit MultiStyleAttack.repeatedBlow = none := by
  obtain ⟨-, -, -, hattacks, hstances, hblows, hstancesRefused, hblowsRefused⟩ :=
    stances_and_attacks_read_back
  refine ⟨⟨readsBack_crushingBlow, hattacks _ ?_⟩, ⟨Stance.reshaped_turnedDistant, ?_⟩,
    ⟨MultiStyleAttack.reshaped_turnedBlow, ?_⟩, ⟨Stance.repeatsTagged_twiceTagged, ?_⟩,
    MultiStyleAttack.repeatsTagged_repeatedBlow, ?_⟩
  · intro multiplier hmultiplier
    obtain rfl := Option.some.inj hmultiplier
    exact readsBack_crushingBlow
  · exact hstances _ _ Stance.reshaped_turnedDistant 126
  · exact hblows _ _ MultiStyleAttack.reshaped_turnedBlow 126
  · exact hstancesRefused _ Stance.repeatsTagged_twiceTagged _
  · exact hblowsRefused _ MultiStyleAttack.repeatsTagged_repeatedBlow _

end CombatAccuracy
