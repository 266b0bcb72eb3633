import CombatAccuracy.Json.Fields
import Mathlib.Data.List.Nodup
/-!
# Records in objects

What a record's reader finds in an object depends on the names and values of its members alone. A
record written in full is found whole (`fields?_record`), and so is the rest of a tagged one
(`tagged?_record`); neither the order of members nor the spelling of their keys counts
(`Gives.exists_fields`); what an object gives of a field is found in the member that gives it
(`lookup_of_member`); an object that gives a field twice is no record (`fields?_of_repeats`).
-/
namespace CombatAccuracy

namespace Fields
variable {α : Type} (name : String) (read : Json → Option α) (default? : Option α)

theorem value?_nil : Fields.value? [] name read default? = default? :=
  rfl

theorem value?_cons (field : String × Json) (fields : Fields) :
    Fields.value? (field :: fields) name read default? =
      if name = field.1 then read field.2 else fields.value? name read default? := by
  by_cases h : name = field.1
  · rw [if_pos h, Fields.value?, List.lookup_cons, h, beq_self_eq_true]
  · rw [if_neg h, Fields.value?, List.lookup_cons, beq_eq_false_iff_ne.mpr h]
    rfl

end Fields

namespace Json

/-- The values of a record with these field names, in an object or in an array of the first ones. -/
def fields? (names : List String) : Json → Option Fields
  | .object members => (named? members).filter (unambiguous names)
  | .array elements => if elements.length ≤ names.length then some (names.zip elements) else none
  | _ => none

/-- The values of a variant with these field names: in an array all must be there. -/
def variantFields? (names : List String) : Json → Option Fields
  | .array elements => if elements.length = names.length then some (names.zip elements) else none
  | json => json.fields? names

def members : Json → List (Key × Json)
  | .object members => members
  | _ => []

/-- A member under the text of its key. -/
def named (member : Key × Json) : String × Json :=
  (member.1.text?.getD "", member.2)

theorem named?_eq_map {members : List (Key × Json)}
    (h : ∀ member ∈ members, member.1.text?.isSome = true) :
    named? members = some (members.map named) := by
  induction members with
  | nil => rfl
  | cons member members ih =>
    obtain ⟨key, value⟩ := member
    obtain ⟨name, hname⟩ := Option.isSome_iff_exists.mp (h _ List.mem_cons_self)
    have hrest := ih fun other hother => h other (List.mem_cons_of_mem _ hother)
    simp only [named?, hname, hrest, List.map_cons, named, Option.bind_eq_bind, Option.bind_some,
      Option.getD_some]

theorem occurrences_of_named? {members : List (Key × Json)} {fields : Fields}
    (h : named? members = some fields) (name : String) :
    occurrences name fields = members.countP fun member => member.1.text? == some name := by
  induction members generalizing fields with
  | nil =>
    obtain rfl := Option.some.inj h
    rfl
  | cons member members ih =>
    obtain ⟨key, value⟩ := member
    simp only [named?, Option.bind_eq_bind, Option.bind_eq_some_iff] at h
    obtain ⟨text, htext, others, hothers, heq⟩ := h
    obtain rfl := Option.some.inj heq
    have hrest := ih hothers
    simp only [occurrences] at hrest ⊢
    rw [List.countP_cons, List.countP_cons, hrest, htext]
    rfl

theorem mem_of_named? {members : List (Key × Json)} {fields : Fields}
    (h : named? members = some fields) {member : Key × Json} (hmember : member ∈ members)
    {name : String} (hname : member.1.text? = some name) : (name, member.2) ∈ fields := by
  induction members generalizing fields with
  | nil => nomatch hmember
  | cons first members ih =>
    obtain ⟨key, value⟩ := first
    simp only [named?, Option.bind_eq_bind, Option.bind_eq_some_iff] at h
    obtain ⟨text, htext, others, hothers, heq⟩ := h
    obtain rfl := Option.some.inj heq
    rcases List.mem_cons.mp hmember with rfl | hmember
    · obtain rfl : text = name := Option.some.inj (htext.symm.trans hname)
      exact List.mem_cons_self
    · exact List.mem_cons_of_mem _ (ih hothers hmember)

theorem lookup_of_mem {fields : Fields} {name : String} {value : Json}
    (honce : occurrences name fields ≤ 1) (hmem : (name, value) ∈ fields) :
    fields.lookup name = some value := by
  induction fields with
  | nil => nomatch hmem
  | cons field fields ih =>
    obtain ⟨other, first⟩ := field
    by_cases hother : name = other
    · subst hother
      have hrest : occurrences name fields = 0 := by
        simp only [occurrences, List.countP_cons, beq_self_eq_true, if_true] at honce ⊢
        omega
      rcases List.mem_cons.mp hmem with heq | hmem
      · rw [List.lookup_cons_self, (Prod.mk.inj heq).2]
      · have habsent := List.countP_eq_zero.mp hrest _ hmem
        simp at habsent
    · have hne : (name == other) = false := beq_eq_false_iff_ne.mpr hother
      have hrest : occurrences name fields ≤ 1 := by
        simp only [occurrences, List.countP_cons] at honce ⊢
        omega
      rcases List.mem_cons.mp hmem with heq | hmem
      · exact absurd (Prod.mk.inj heq).1 hother
      · rw [List.lookup_cons, hne]
        exact ih hrest hmem

theorem lookup_eq_none_of_occurrences {fields : Fields} {name : String}
    (hnone : occurrences name fields = 0) : fields.lookup name = none := by
  rw [List.lookup_eq_none_iff]
  intro field hmem
  have hne := List.countP_eq_zero.mp hnone field hmem
  rw [bne_iff_ne]
  intro heq
  exact hne (beq_iff_eq.mpr heq.symm)

theorem occurrences_le_one {fields : Fields} (hnodup : (fields.map Prod.fst).Nodup)
    (name : String) : occurrences name fields ≤ 1 := by
  have hcount : occurrences name fields = (fields.map Prod.fst).count name := by
    rw [occurrences, List.count, List.countP_map]
    rfl
  rw [hcount]
  exact List.nodup_iff_count_le_one.mp hnodup name

theorem unambiguous_of_nodup {fields : Fields} (hnodup : (fields.map Prod.fst).Nodup)
    (names : List String) : unambiguous names fields = true := by
  simp only [unambiguous, List.all_eq_true, decide_eq_true_eq]
  intro name _
  exact occurrences_le_one hnodup name

theorem named?_record (full : Fields) : named? (record full).members = some full := by
  have hreadable : ∀ member ∈ (record full).members, member.1.text?.isSome = true := by
    intro member hmember
    obtain ⟨field, -, rfl⟩ := List.mem_map.mp hmember
    rfl
  rw [named?_eq_map hreadable, record, members, List.map_map]
  exact congrArg some (List.map_id full)

theorem fields?_record_of_unambiguous {full : Fields} {names : List String}
    (h : unambiguous names full = true) : fields? names (record full) = some full := by
  change (named? (record full).members).filter (unambiguous names) = some full
  rw [named?_record, Option.filter_some, if_pos h]

theorem fields?_record {full : Fields} (hnodup : (full.map Prod.fst).Nodup)
    (names : List String) : fields? names (record full) = some full :=
  fields?_record_of_unambiguous (unambiguous_of_nodup hnodup names)

theorem lookup_perm {fields given : Fields} (h : fields.Perm given)
    (hnodup : (given.map Prod.fst).Nodup) (name : String) :
    fields.lookup name = given.lookup name := by
  have honce := occurrences_le_one ((h.map Prod.fst).nodup_iff.mpr hnodup) name
  cases hgiven : given.lookup name with
  | some value =>
    obtain ⟨before, after, heq, -⟩ := List.lookup_eq_some_iff.mp hgiven
    refine lookup_of_mem honce (h.symm.subset ?_)
    simp [heq]
  | none =>
    rw [List.lookup_eq_none_iff] at hgiven ⊢
    exact fun field hfield => hgiven field (h.subset hfield)

/-- Whether members give just these named values, in any order and with their keys spelt in any
way. -/
def Gives (members : List (Key × Json)) (given : Fields) : Prop :=
  ∃ fields, named? members = some fields ∧ fields.Perm given

/-- An object is found to hold what its members give. -/
theorem Gives.exists_fields {members : List (Key × Json)} {given : Fields}
    (h : Gives members given) (hnodup : (given.map Prod.fst).Nodup) (names : List String) :
    ∃ fields, (object members).fields? names = some fields ∧
      ∀ name, fields.lookup name = given.lookup name := by
  obtain ⟨fields, hnamed, hperm⟩ := h
  have hunambiguous :=
    unambiguous_of_nodup ((hperm.map Prod.fst).nodup_iff.mpr hnodup) names
  refine ⟨fields, ?_, lookup_perm hperm hnodup⟩
  rw [fields?, hnamed, Option.filter_some, if_pos hunambiguous]

theorem mem_members_record {full : Fields} {name : String} {value : Json} :
    (.plain name, value) ∈ (record full).members ↔ (name, value) ∈ full := by
  simp [record, Json.members]

theorem lookup_of_member {names : List String} {json : Json} {fields : Fields}
    (h : json.fields? names = some fields) {member : Key × Json} (hmember : member ∈ json.members)
    {name : String} (htext : member.1.text? = some name) (hname : name ∈ names) :
    fields.lookup name = some member.2 := by
  cases json with
  | object members =>
    rw [fields?, Option.filter_eq_some_iff] at h
    obtain ⟨hnamed, hunambiguous⟩ := h
    have honce := List.all_eq_true.mp hunambiguous name hname
    exact lookup_of_mem (of_decide_eq_true honce) (mem_of_named? hnamed hmember htext)
  | _ => exact absurd hmember List.not_mem_nil

/-- Whether an object gives one of these fields twice. -/
def Repeats (names : List String) (json : Json) : Prop :=
  ∃ name ∈ names, 1 < json.members.countP fun member => member.1.text? == some name

theorem fields?_of_repeats {names : List String} {json : Json} (h : json.Repeats names) :
    json.fields? names = none := by
  obtain ⟨name, hname, hcount⟩ := h
  cases json with
  | object members =>
    cases hnamed : named? members with
    | none => simp [fields?, hnamed]
    | some fields =>
      have hoccurrences := occurrences_of_named? hnamed name
      have hambiguous : unambiguous names fields = false := by
        rw [Bool.eq_false_iff]
        intro hall
        have honce := List.all_eq_true.mp hall name hname
        rw [hoccurrences, decide_eq_true_eq] at honce
        exact Nat.not_lt.mpr honce hcount
      simp [fields?, hnamed, Option.filter, hambiguous]
  | _ => nomatch hcount

theorem tagged?_record {tag name : String} {fields : Fields} {room : Nat}
    (hfits : membersFit room (record fields).members = true)
    (hfresh : ∀ field ∈ fields, field.1 ≠ tag) :
    (record ((tag, .string name) :: fields)).tagged? tag (room + 1) =
      some (name, record fields) := by
  have hall : fits (room + 1) (.object (record ((tag, .string name) :: fields)).members) = true :=
    hfits
  have hnamed := named?_record ((tag, .string name) :: fields)
  have htag : (fields.filter fun field => field.1 == tag) = [] := by
    simpa using hfresh
  have hrest : (fields.filter fun field => !(field.1 == tag)) = fields := by
    simpa using hfresh
  change (Json.object (record ((tag, .string name) :: fields)).members).tagged? tag (room + 1) = _
  rw [tagged?, hall]
  simp [hnamed, htag, hrest]

theorem variantFields?_record {full : Fields} (hnodup : (full.map Prod.fst).Nodup)
    (names : List String) : variantFields? names (record full) = some full :=
  fields?_record hnodup names

theorem int32?_toInt (n : Int32) : int32? (.int n.toInt) = some n := by
  have hrange : Int32.minValue.toInt ≤ n.toInt ∧ n.toInt ≤ Int32.maxValue.toInt :=
    ⟨n.minValue_le_toInt, n.toInt_le⟩
  rw [int32?, if_pos hrange, Int32.ofInt_toInt]

theorem uint32?_toNat (n : UInt32) : uint32? (.int n.toNat) = some n := by
  have hrange : (0 : Int) ≤ n.toNat ∧ (n.toNat : Int) < UInt32.size := by
    have hlt := n.toNat_lt_size
    omega
  rw [uint32?, if_pos hrange, Int.toNat_natCast, UInt32.ofNat_toNat]

theorem ofWord?_of_word {α : Type} [Vocabulary α] (a : α) : ofWord? (word a) = some a :=
  Vocabulary.ofWord?_word a

theorem ofHeldWord?_of_word {α : Type} [Vocabulary α] (a : α) : ofHeldWord? (word a) = some a :=
  Vocabulary.ofWord?_word a

theorem nullable?_ofOption {α : Type} [Vocabulary α] {read : Json → Option α}
    (hread : ∀ a, read (word a) = some a) (a : Option α) :
    nullable? read (ofOption word a) = some a := by
  cases a with
  | none => rfl
  | some a => exact congrArg (Option.map some) (hread a)

end Json
end CombatAccuracy
