import CombatAccuracy.Json.Layout
import CombatAccuracy.Proofs.Records
/-!
# Laid out records

An array's elements are taken one by one, and an object's members are found by their names. Both
find the same, because no name is used twice (`Layout.ofElements?_eq_ofFields?`), so a record is
read from the named values of either form (`Layout.read?_eq`).
-/
namespace CombatAccuracy

section Zip
variable {names : List String} {name : String} (values : List Json)

theorem lookup_zip_concat (h : name ∉ names) :
    ((names ++ [name]).zip values).lookup name = values[names.length]? := by
  induction names generalizing values with
  | nil => cases values <;> simp
  | cons first names ih =>
    rw [List.mem_cons, not_or] at h
    cases values with
    | nil => rfl
    | cons value values =>
      rw [List.cons_append, List.zip_cons_cons, List.lookup_cons, beq_eq_false_iff_ne.mpr h.1]
      exact ih values h.2

theorem lookup_zip_concat_of_ne {other : String} (h : other ≠ name) :
    ((names ++ [name]).zip values).lookup other = (names.zip values).lookup other := by
  induction names generalizing values with
  | nil => cases values <;> simp [List.lookup_cons, beq_eq_false_iff_ne.mpr h]
  | cons first names ih =>
    cases values with
    | nil => rfl
    | cons value values =>
      rw [List.cons_append, List.zip_cons_cons, List.zip_cons_cons, List.lookup_cons,
        List.lookup_cons, ih values]

end Zip

namespace Layout
variable {α : Type}

theorem ofFields?_congr {layout : Layout α} {fields other : Fields}
    (h : ∀ name ∈ layout.names, fields.lookup name = other.lookup name) :
    layout.ofFields? fields = layout.ofFields? other := by
  induction layout with
  | made a => rfl
  | field earlier name read default? ih =>
    rw [names, List.forall_mem_append, List.forall_mem_singleton] at h
    rw [ofFields?, ofFields?, ih h.1, Fields.value?, Fields.value?, h.2]

/-- Taken from an array, each field is what would be found under its name. -/
theorem take?_eq {layout : Layout α} (hnodup : layout.names.Nodup) (elements : List Json) :
    layout.take? elements = (layout.ofFields? (layout.names.zip elements)).map fun a =>
      (a, elements.drop layout.names.length) := by
  induction layout with
  | made a => rfl
  | field earlier name read default? ih =>
    rw [names, List.nodup_append] at hnodup
    obtain ⟨hearlier, -, hdisjoint⟩ := hnodup
    have hfresh : name ∉ earlier.names := fun h => hdisjoint name h name (by simp) rfl
    have hcongr : earlier.ofFields? ((earlier.names ++ [name]).zip elements) =
        earlier.ofFields? (earlier.names.zip elements) := by
      refine ofFields?_congr ?_
      intro other hother
      refine lookup_zip_concat_of_ne elements ?_
      rintro rfl
      exact hfresh hother
    have hrest : elements.drop (earlier.names ++ [name]).length =
        (elements.drop earlier.names.length).tail := by
      rw [List.length_append, List.length_singleton, List.tail_drop]
    rw [take?, ih hearlier, names, ofFields?, hcongr, hrest, Fields.value?,
      lookup_zip_concat elements hfresh, ← List.head?_drop]
    cases earlier.ofFields? (earlier.names.zip elements) with
    | none => rfl
    | some make =>
      cases elements.drop earlier.names.length with
      | nil => cases default? <;> rfl
      | cons element rest => cases h : read element <;> simp [h]

section Elements
variable {layout : Layout α} {elements : List Json}

theorem ofElements?_eq_ofFields? (hnodup : layout.names.Nodup)
    (hlength : elements.length ≤ layout.names.length) :
    layout.ofElements? elements = layout.ofFields? (layout.names.zip elements) := by
  rw [ofElements?, take?_eq hnodup, List.drop_eq_nil_of_le hlength]
  cases layout.ofFields? (layout.names.zip elements) <;> rfl

theorem ofElements?_of_longer (hnodup : layout.names.Nodup)
    (hlength : layout.names.length < elements.length) : layout.ofElements? elements = none := by
  rw [ofElements?, take?_eq hnodup]
  cases layout.ofFields? (layout.names.zip elements) with
  | none => rfl
  | some a => simpa using hlength

end Elements

/-- Whether the field of this name cannot have this value. -/
@[simp] def rejects {β : Type} : Layout β → String → Json → Bool
  | made _, _, _ => false
  | field earlier name read _, other, value =>
    earlier.rejects other value || other = name && (read value).isNone

theorem ofFields?_of_rejects {layout : Layout α} {fields : Fields} {name : String} {value : Json}
    (hlookup : fields.lookup name = some value) (h : layout.rejects name value = true) :
    layout.ofFields? fields = none := by
  induction layout with
  | made a => cases h
  | field earlier other read default? ih =>
    rw [rejects, Bool.or_eq_true, Bool.and_eq_true, decide_eq_true_eq] at h
    rw [ofFields?]
    rcases h with hearlier | ⟨rfl, hread⟩
    · rw [ih hearlier]
      rfl
    · have hnone : fields.value? name read default? = none := by
        rw [Fields.value?, hlookup]
        exact Option.isNone_iff_eq_none.mp hread
      rw [hnone]
      cases earlier.ofFields? fields <;> rfl

section Reading
variable {layout : Layout α} {json : Json}

/-- A record is read from its named values, whichever form it has. -/
theorem read?_eq (hnodup : layout.names.Nodup) (json : Json) :
    layout.read? json = (json.fields? layout.names).bind layout.ofFields? := by
  cases json with
  | array elements =>
    rw [read?, Json.fields?]
    split
    · next hlength => rw [Option.bind_some, ofElements?_eq_ofFields? hnodup hlength]
    · next hlength => rw [Option.bind_none, ofElements?_of_longer hnodup (Nat.not_le.mp hlength)]
  | _ => rfl

theorem readVariant?_eq (hnodup : layout.names.Nodup) (json : Json) :
    layout.readVariant? json = (json.variantFields? layout.names).bind layout.ofFields? := by
  cases json with
  | array elements =>
    rw [readVariant?, Json.variantFields?]
    split
    · next hlength => rw [Option.bind_some, ofElements?_eq_ofFields? hnodup (Nat.le_of_eq hlength)]
    · rfl
  | _ => simp only [readVariant?, Json.variantFields?, read?_eq hnodup]

theorem read?_record {full : Fields} (hnodup : layout.names.Nodup)
    (hfull : (full.map Prod.fst).Nodup) :
    layout.read? (Json.record full) = layout.ofFields? full := by
  rw [read?_eq hnodup, Json.fields?_record hfull, Option.bind_some]

theorem read?_of_repeats (hnodup : layout.names.Nodup)
    (h : json.Repeats layout.names) : layout.read? json = none := by
  rw [read?_eq hnodup, Json.fields?_of_repeats h, Option.bind_none]

theorem read?_of_rejects {member : Key × Json} {name : String} (hnodup : layout.names.Nodup)
    (hmember : member ∈ json.members) (htext : member.1.text? = some name)
    (hname : name ∈ layout.names) (h : layout.rejects name member.2 = true) :
    layout.read? json = none := by
  rw [read?_eq hnodup, Option.bind_eq_none_iff]
  intro fields hfields
  exact ofFields?_of_rejects (Json.lookup_of_member hfields hmember htext hname) h

end Reading
end Layout
end CombatAccuracy
