import CombatAccuracy.Proofs.Records
/-!
# Records written sparsely

A record may be written without the members that hold defaults, in any order, among members of other
names, and with values that stand for its own (`Thinned`). Its reader still finds each field with
such a value, or does not find it if its value is the default (`Thinned.exists_fields`), so a field
is read as what it was written from (`Told.value?_eq`).
-/
namespace CombatAccuracy.Json

/-- A member with the value that its key is given. -/
def revise (revised : Key → Json) (member : Key × Json) : Key × Json :=
  (member.1, revised member.1)

/-- A record that is written in full as `written` is written sparsely as an object: of its members,
any that are as in `default` are left out; the kept ones may have revised values that stand for
their own; and they come in any order, among members of other names. -/
inductive Thinned (vary : Key → Json → Json → Prop) (default written : Json) : Json → Prop
  | intro (kept foreign members : List (Key × Json)) (revised : Key → Json)
      (hkept : kept.Sublist written.members)
      (hdropped : ∀ member ∈ written.members, member ∉ kept → member ∈ default.members)
      (hrevised : ∀ member ∈ kept, vary member.1 member.2 (revised member.1))
      (hforeign : ∀ member ∈ foreign, ∃ name, member.1.text? = some name ∧
        ∀ own ∈ written.members, own.1.text? ≠ some name)
      (horder : members.Perm (kept.map (revise revised) ++ foreign)) :
      Thinned vary default written (.object members)

/-- What is found of a field that is written sparsely: a value that stands for its own, or nothing,
if its value is the default. -/
def Told (vary : Key → Json → Json → Prop) (default : Json) (fields : Fields) (name : String)
    (value : Json) : Prop :=
  (∃ other, vary (.plain name) value other ∧ fields.lookup name = some other) ∨
    fields.lookup name = none ∧ (.plain name, value) ∈ default.members

/-- A value that no other stands for. -/
def Unrevised (_ : Key) (value other : Json) : Prop :=
  other = value

section Thinning
variable {full : Fields} {kept foreign members : List (Key × Json)} {revised : Key → Json}

theorem map_named_sublist (hkept : kept.Sublist (record full).members) :
    (kept.map named).Sublist full := by
  have hfull : (record full).members.map named = full := by
    rw [record, Json.members, List.map_map]
    exact List.map_id full
  have hsublist := hkept.map named
  rwa [hfull] at hsublist

theorem nodup_names_kept (hkept : kept.Sublist (record full).members)
    (hnodup : (full.map Prod.fst).Nodup) :
    (((kept.map (revise revised)).map named).map Prod.fst).Nodup := by
  have hnames : ((kept.map (revise revised)).map named).map Prod.fst =
      (kept.map named).map Prod.fst := by
    simp only [List.map_map]
    rfl
  rw [hnames]
  exact hnodup.sublist ((map_named_sublist hkept).map Prod.fst)

theorem occurrences_foreign {name : String} (hname : name ∈ full.map Prod.fst)
    (hforeign : ∀ member ∈ foreign, ∃ text, member.1.text? = some text ∧
      ∀ own ∈ (record full).members, own.1.text? ≠ some text) :
    occurrences name (foreign.map named) = 0 := by
  obtain ⟨⟨_, value⟩, hfield, rfl⟩ := List.mem_map.mp hname
  refine List.countP_eq_zero.mpr ?_
  intro field hmem
  obtain ⟨member, hmember, rfl⟩ := List.mem_map.mp hmem
  obtain ⟨text, htext, hother⟩ := hforeign member hmember
  have hne := hother _ (mem_members_record.mpr hfield)
  simp only [named, htext, Option.getD_some, beq_iff_eq]
  rintro rfl
  exact hne rfl

theorem occurrences_dropped {name : String} {value : Json}
    (hkept : kept.Sublist (record full).members) (hnodup : (full.map Prod.fst).Nodup)
    (hfield : (name, value) ∈ full) (hdropped : (.plain name, value) ∉ kept) :
    occurrences name ((kept.map (revise revised)).map named) = 0 := by
  refine List.countP_eq_zero.mpr ?_
  intro field hmem
  obtain ⟨_, hrevised, rfl⟩ := List.mem_map.mp hmem
  obtain ⟨⟨key, other⟩, hmember, rfl⟩ := List.mem_map.mp hrevised
  obtain ⟨⟨own, _⟩, hown, heq⟩ := List.mem_map.mp (hkept.subset hmember)
  obtain ⟨rfl, rfl⟩ := Prod.mk.inj heq
  simp only [named, revise, Key.text?, Option.getD_some, beq_iff_eq]
  rintro rfl
  have hvalue := lookup_of_mem (occurrences_le_one hnodup own) hfield
  rw [lookup_of_mem (occurrences_le_one hnodup own) hown] at hvalue
  obtain rfl := Option.some.inj hvalue
  exact hdropped hmember

theorem readable_members (hkept : kept.Sublist (record full).members)
    (hforeign : ∀ member ∈ foreign, ∃ text, member.1.text? = some text ∧
      ∀ own ∈ (record full).members, own.1.text? ≠ some text)
    (horder : members.Perm (kept.map (revise revised) ++ foreign)) :
    ∀ member ∈ members, member.1.text?.isSome = true := by
  intro member hmember
  rcases List.mem_append.mp (horder.subset hmember) with hown | hother
  · obtain ⟨⟨key, _⟩, hmem, rfl⟩ := List.mem_map.mp hown
    obtain ⟨field, -, heq⟩ := List.mem_map.mp (hkept.subset hmem)
    rw [revise, ← (Prod.mk.inj heq).1]
    rfl
  · obtain ⟨text, htext, -⟩ := hforeign member hother
    rw [htext]
    rfl

theorem occurrences_members {name : String} (hname : name ∈ full.map Prod.fst)
    (hforeign : ∀ member ∈ foreign, ∃ text, member.1.text? = some text ∧
      ∀ own ∈ (record full).members, own.1.text? ≠ some text)
    (horder : members.Perm (kept.map (revise revised) ++ foreign)) :
    occurrences name (members.map named) =
      occurrences name ((kept.map (revise revised)).map named) := by
  have hperm := horder.map named
  have hnone := occurrences_foreign hname hforeign
  simp only [occurrences] at hnone ⊢
  rw [hperm.countP_eq, List.map_append, List.countP_append, hnone, Nat.add_zero]

end Thinning

/-- From a record that is written sparsely, its fields are told, and none of them twice. -/
theorem Thinned.exists_fields {vary : Key → Json → Json → Prop} {default json : Json}
    {full : Fields} (h : Thinned vary default (record full) json)
    (hnodup : (full.map Prod.fst).Nodup) :
    ∃ fields, json.fields? (full.map Prod.fst) = some fields ∧
      ∀ name value, (name, value) ∈ full → Told vary default fields name value := by
  obtain ⟨kept, foreign, members, revised, hkept, hdropped, hrevised, hforeign, horder⟩ := h
  have honce : ∀ name ∈ full.map Prod.fst, occurrences name (members.map named) ≤ 1 := by
    intro name hname
    rw [occurrences_members hname hforeign horder]
    exact occurrences_le_one (nodup_names_kept hkept hnodup) name
  refine ⟨members.map named, ?_, ?_⟩
  · have hunambiguous : unambiguous (full.map Prod.fst) (members.map named) = true := by
      simp only [unambiguous, List.all_eq_true, decide_eq_true_eq]
      exact honce
    rw [fields?, named?_eq_map (readable_members hkept hforeign horder), Option.filter_some,
      if_pos hunambiguous]
  · intro name value hfield
    have hname : name ∈ full.map Prod.fst := List.mem_map.mpr ⟨_, hfield, rfl⟩
    by_cases hmem : (.plain name, value) ∈ kept
    · left
      have hmember : (.plain name, revised (.plain name)) ∈ members :=
        horder.symm.subset (List.mem_append_left _ (List.mem_map.mpr ⟨_, hmem, rfl⟩))
      refine ⟨revised (.plain name), hrevised _ hmem, ?_⟩
      exact lookup_of_mem (honce name hname) (List.mem_map.mpr ⟨_, hmember, rfl⟩)
    · right
      have hnone := occurrences_members hname hforeign horder
      rw [occurrences_dropped hkept hnodup hfield hmem] at hnone
      exact ⟨lookup_eq_none_of_occurrences hnone, hdropped _ (mem_members_record.mpr hfield) hmem⟩

/-- A field that is written sparsely is read as what it was written from, if its reader reads back
what its writer writes and whatever may stand for that. -/
theorem Told.value?_eq {α : Type} {vary : Key → Json → Json → Prop} {defaults fields : Fields}
    {name : String} {read : Json → Option α} {a default : α} (write : α → Json)
    (h : Told vary (record defaults) fields name (write a))
    (hnodup : (defaults.map Prod.fst).Nodup) (hdefault : (name, write default) ∈ defaults)
    (hcodec : ∀ b, read (write b) = some b)
    (hread : ∀ other, vary (.plain name) (write a) other → read other = some a) :
    fields.value? name read (some default) = some a := by
  rcases h with ⟨other, hother, hlookup⟩ | ⟨hlookup, hmem⟩
  · rw [Fields.value?, hlookup]
    exact hread other hother
  · have hvalue := lookup_of_mem (occurrences_le_one hnodup name) (mem_members_record.mp hmem)
    rw [lookup_of_mem (occurrences_le_one hnodup name) hdefault] at hvalue
    have hwrite : write default = write a := Option.some.inj hvalue
    have hread : read (write default) = read (write a) := congrArg read hwrite
    rw [hcodec, hcodec] at hread
    rw [Fields.value?, hlookup]
    exact hread

theorem Thinned.exists_numbers (entries : List (String × Int32)) {json : Json}
    (h : Thinned Unrevised (record (entries.map fun entry => (entry.1, .int (Int32.toInt 0))))
      (record (entries.map fun entry => (entry.1, .int entry.2.toInt))) json)
    (hnodup : (entries.map Prod.fst).Nodup) :
    ∃ fields, json.fields? (entries.map Prod.fst) = some fields ∧
      ∀ entry ∈ entries, fields.value? entry.1 int32? (some 0) = some entry.2 := by
  have hnames : ∀ write : String × Int32 → Json,
      (entries.map fun entry => (entry.1, write entry)).map Prod.fst = entries.map Prod.fst := by
    intro write
    rw [List.map_map]
    rfl
  obtain ⟨fields, hfields, htold⟩ := h.exists_fields (by rwa [hnames])
  refine ⟨fields, by rwa [hnames] at hfields, ?_⟩
  intro entry hentry
  have hfield := htold entry.1 (.int entry.2.toInt) (List.mem_map.mpr ⟨entry, hentry, rfl⟩)
  refine hfield.value?_eq (fun n => .int n.toInt) (by rwa [hnames])
    (List.mem_map.mpr ⟨entry, hentry, rfl⟩) int32?_toInt ?_
  intro other hother
  rw [hother]
  exact int32?_toInt entry.2

end CombatAccuracy.Json
