import CombatAccuracy.Proofs.Thinning
/-!
# Tagged records reshaped

A tagged record may be written with its tag anywhere, in any order, without fields that are absent,
and among strings of other names (`Reshaped`). Its tag and the fields of its variant are still found
(`Reshaped.exists_fields`). An object that gives the tag twice, or a field of the variant that the
tag names, is no tagged record (`variantFields?_of_repeatsTagged`).
-/
namespace CombatAccuracy.Json

/-- A record without any of these fields, as null. -/
def absent (names : List String) : Json :=
  record (names.map fun name => (name, .null))

/-- A record that is written in full as `written` is reshaped as an object: its members come in any
order, those of optional fields that are null may be left out, and the members of other names are
strings. -/
def Reshaped (optional : List String) (written json : Json) : Prop :=
  Thinned Unrevised (absent optional) written json ∧
    ∀ member ∈ json.members, member ∉ written.members → ∃ text, member.2 = .string text

/-- Whether an object carries a tag with this word. -/
def TaggedAs (tag word : String) (json : Json) : Prop :=
  ∃ member ∈ json.members, member.1.text? = some tag ∧ member.2 = .string word

/-- Whether an object gives its tag twice, or a field of the variant that its tag names. -/
def RepeatsTagged {α : Type} [Vocabulary α] (tag : String) (names : α → List String)
    (json : Json) : Prop :=
  json.Repeats [tag] ∨
    ∃ variant, json.TaggedAs tag (Vocabulary.word variant) ∧ json.Repeats (names variant)

/-- The value that fields give for a key. -/
def valueOf (fields : Fields) (key : Key) : Json :=
  (fields.lookup (key.text?.getD "")).getD .null

theorem revise_valueOf {fields : Fields} (hnodup : (fields.map Prod.fst).Nodup)
    {member : Key × Json} (hmember : member ∈ (record fields).members) :
    revise (valueOf fields) member = member := by
  obtain ⟨⟨name, value⟩, hfield, rfl⟩ := List.mem_map.mp hmember
  have hlookup := lookup_of_mem (occurrences_le_one hnodup name) hfield
  simp [revise, valueOf, Key.text?, hlookup]

theorem Reshaped.intro {optional : List String} {full : Fields} {members : List (Key × Json)}
    (kept : Fields) (foreign : List (Key × Json)) (hnodup : (full.map Prod.fst).Nodup)
    (hkept : kept.Sublist full)
    (hdropped : ∀ field ∈ full, field ∉ kept → field.1 ∈ optional ∧ field.2 = .null)
    (hforeign : ∀ member ∈ foreign, (∃ name ∉ full.map Prod.fst, member.1.text? = some name) ∧
      ∃ text, member.2 = .string text)
    (horder : members.Perm ((record kept).members ++ foreign)) :
    Reshaped optional (record full) (.object members) := by
  have hsame : ∀ member ∈ (record kept).members, revise (valueOf kept) member = member :=
    fun _ => revise_valueOf (hnodup.sublist (hkept.map Prod.fst))
  constructor
  · refine .intro (record kept).members foreign members (valueOf kept) (hkept.map _) ?_ ?_ ?_ ?_
    · intro member hmember hout
      obtain ⟨⟨name, value⟩, hfield, rfl⟩ := List.mem_map.mp hmember
      obtain ⟨hname, hnull⟩ := hdropped _ hfield fun hin => hout (List.mem_map_of_mem hin)
      refine mem_members_record.mpr (List.mem_map.mpr ⟨name, hname, ?_⟩)
      rw [show value = .null from hnull]
    · intro member hmember
      exact congrArg Prod.snd (hsame member hmember)
    · intro member hmember
      obtain ⟨⟨name, hname, htext⟩, -⟩ := hforeign member hmember
      refine ⟨name, htext, ?_⟩
      intro own hown heq
      obtain ⟨field, hfield, rfl⟩ := List.mem_map.mp hown
      obtain rfl : field.1 = name := Option.some.inj heq
      exact hname (List.mem_map_of_mem hfield)
    · rwa [List.map_congr_left hsame, List.map_id']
  · intro member hmember hout
    rcases List.mem_append.mp (horder.mem_iff.mp hmember) with hkeptMember | hforeignMember
    · exact absurd ((hkept.map _).subset hkeptMember) hout
    · exact (hforeign member hforeignMember).2

theorem Reshaped.refl (optional : List String) {full : Fields}
    (hnodup : (full.map Prod.fst).Nodup) : Reshaped optional (record full) (record full) := by
  refine .intro full [] hnodup (.refl full) ?_ (by simp) ?_
  · intro field hfield hdropped
    exact absurd hfield hdropped
  · rw [List.append_nil]
    exact .refl _

/-- A field is found with a value, or it is absent and null stands for it. -/
def Found (fields : Fields) (name : String) (value : Json) : Prop :=
  fields.lookup name = some value ∨ fields.lookup name = none ∧ value = .null

/-- The fields of a tagged record without its tag. -/
def untagged (tag : String) (fields : Fields) : Fields :=
  fields.filter fun field => !(field.1 == tag)

section Untagged
variable {tag name : String} {names : List String} {fields : Fields}

theorem lookup_untagged (hname : name ≠ tag) :
    (untagged tag fields).lookup name = fields.lookup name := by
  induction fields with
  | nil => rfl
  | cons field fields ih =>
    obtain ⟨key, value⟩ := field
    rw [untagged] at ih ⊢
    by_cases hkey : key = tag
    · subst hkey
      have hne : (name == key) = false := beq_eq_false_iff_ne.mpr hname
      rw [List.filter_cons_of_neg (by simp), ih, List.lookup_cons, hne]
    · rw [List.filter_cons_of_pos (by simpa using hkey), List.lookup_cons, List.lookup_cons, ih]

theorem occurrences_untagged (hname : name ≠ tag) :
    occurrences name (untagged tag fields) = occurrences name fields := by
  rw [occurrences, untagged, List.countP_filter]
  refine List.countP_congr ?_
  intro field _
  simp only [Bool.and_eq_true, beq_iff_eq, Bool.not_eq_true', beq_eq_false_iff_ne]
  constructor
  · exact And.left
  · rintro rfl
    exact ⟨rfl, hname⟩

theorem occurrences_untagged_le (name : String) :
    occurrences name (untagged tag fields) ≤ occurrences name fields :=
  List.filter_sublist.countP_le

theorem filter_eq_singleton {value : Json} (honce : occurrences tag fields ≤ 1)
    (hlookup : fields.lookup tag = some value) :
    (fields.filter fun field => field.1 == tag) = [(tag, value)] := by
  have hmem : (tag, value) ∈ fields.filter fun field => field.1 == tag := by
    obtain ⟨before, after, rfl, -⟩ := List.lookup_eq_some_iff.mp hlookup
    simp
  rw [occurrences, List.countP_eq_length_filter] at honce
  obtain ⟨field, hfield⟩ := List.length_eq_one_iff.mp
    (Nat.le_antisymm honce (List.length_pos_of_mem hmem))
  rw [hfield] at hmem ⊢
  rw [List.mem_singleton.mp hmem]

theorem unambiguous_untagged (h : unambiguous names fields = true) :
    unambiguous names (untagged tag fields) = true := by
  simp only [unambiguous, List.all_eq_true, decide_eq_true_eq] at h ⊢
  intro name hname
  exact Nat.le_trans (occurrences_untagged_le name) (h name hname)

end Untagged

theorem variant?_record (name : String) (body : Json) :
    (record [(name, body)]).variant? = some (name, body) :=
  rfl

section Reading
variable {tag name : String} {names : List String} {fields : Fields} {json body : Json} {room : Nat}

theorem tagged?_object_eq_some {members : List (Key × Json)}
    (h : (object members).tagged? tag room = some (name, body)) :
    ∃ fields, named? members = some fields ∧ body = record (untagged tag fields) ∧
      (fields.filter fun field => field.1 == tag).map Prod.snd = [.string name] := by
  rw [tagged?] at h
  split at h
  · cases h
  · obtain ⟨fields, hnamed, h⟩ := Option.bind_eq_some_iff.mp h
    split at h
    · next hfilter =>
      obtain ⟨rfl, rfl⟩ := Prod.mk.inj (Option.some.inj h)
      exact ⟨fields, hnamed, rfl, by rw [hfilter]; rfl⟩
    · cases h

theorem tagged?_of_repeats (h : json.Repeats [tag]) : json.tagged? tag room = none := by
  rw [Option.eq_none_iff_forall_ne_some]
  rintro ⟨name, body⟩ hread
  obtain ⟨given, hgiven, hcount⟩ := h
  obtain rfl := List.mem_singleton.mp hgiven
  cases json with
  | object members =>
    obtain ⟨fields, hnamed, -, htags⟩ := tagged?_object_eq_some hread
    have honce := congrArg List.length htags
    have hoccurrences := occurrences_of_named? hnamed given
    rw [List.length_map, ← List.countP_eq_length_filter, List.length_singleton] at honce
    rw [occurrences, honce] at hoccurrences
    exact absurd hcount (by rw [Json.members, ← hoccurrences]; decide)
  | _ => cases hcount

theorem variantFields?_of_repeats (h : json.Repeats names) (htag : tag ∉ names)
    (hbody : json.tagged? tag room = some (name, body)) : body.variantFields? names = none := by
  obtain ⟨field, hfield, hcount⟩ := h
  cases json with
  | object members =>
    obtain ⟨fields, hnamed, rfl, -⟩ := tagged?_object_eq_some hbody
    have hne : field ≠ tag := by
      rintro rfl
      exact htag hfield
    change (record (untagged tag fields)).fields? names = none
    refine fields?_of_repeats ⟨field, hfield, ?_⟩
    rwa [← occurrences_of_named? (named?_record _), occurrences_untagged hne,
      occurrences_of_named? hnamed]
  | _ => nomatch hcount

theorem tagged?_name {word : String} (hword : json.TaggedAs tag word)
    (h : json.tagged? tag room = some (name, body)) : name = word := by
  obtain ⟨member, hmember, hkey, hvalue⟩ := hword
  cases json with
  | object members =>
    obtain ⟨fields, hnamed, -, htags⟩ := tagged?_object_eq_some h
    have hfield : (tag, member.2) ∈ fields.filter fun field => field.1 == tag :=
      List.mem_filter.mpr ⟨mem_of_named? hnamed hmember hkey, beq_self_eq_true tag⟩
    have hfound := List.mem_map_of_mem (f := Prod.snd) hfield
    rw [htags, hvalue, List.mem_singleton] at hfound
    exact (Json.string.inj hfound).symm
  | _ => nomatch hmember

/-- An object that repeats its tag or a field of its variant is not read as any variant. -/
theorem variantFields?_of_repeatsTagged {α : Type} [Vocabulary α] {names : α → List String}
    {variant : α} (h : json.RepeatsTagged tag names) (htag : ∀ variant, tag ∉ names variant)
    (hbody : json.tagged? tag room = some (name, body))
    (hvariant : Vocabulary.ofWord? name = some variant) :
    body.variantFields? (names variant) = none := by
  rcases h with hrepeats | ⟨other, hword, hrepeats⟩
  · rw [tagged?_of_repeats hrepeats] at hbody
    nomatch hbody
  · rw [tagged?_name hword hbody, Vocabulary.ofWord?_word] at hvariant
    obtain rfl := Option.some.inj hvariant
    exact variantFields?_of_repeats hrepeats (htag _) hbody

theorem fits_of_fits_zero (h : json.fits 0 = true) (room : Nat) : json.fits room = true := by
  cases json with
  | array elements | object members | unreadable => simp [fits] at h
  | _ => simp [fits]

theorem fits_ofOption {α : Type} [Vocabulary α] (a : Option α) (room : Nat) :
    (ofOption word a).fits room = true := by
  cases a <;> simp [ofOption, word, fits]

theorem membersFit_of_forall {members : List (Key × Json)}
    (h : ∀ member ∈ members, member.1.text?.isSome = true ∧ member.2.fits room = true) :
    membersFit room members = true := by
  induction members with
  | nil => rfl
  | cons member members ih =>
    rw [List.forall_mem_cons] at h
    rw [membersFit, h.1.1, h.1.2, ih h.2]
    rfl

/-- A record of scalars is held whole, however its members are ordered and whatever strings are
among them. -/
theorem fits_of_reshaped {optional : List String} {full : Fields}
    (h : Reshaped optional (record full) json) (hscalar : ∀ field ∈ full, field.2.fits 0 = true)
    (room : Nat) : json.fits (room + 1) = true := by
  obtain ⟨⟨kept, foreign, members, revised, hkept, -, -, hforeign, horder⟩, hstrings⟩ := h
  have hreadable := readable_members hkept hforeign horder
  refine membersFit_of_forall ?_
  intro member hmember
  refine ⟨hreadable member hmember, ?_⟩
  by_cases hown : member ∈ (record full).members
  · obtain ⟨field, hfield, rfl⟩ := List.mem_map.mp hown
    exact fits_of_fits_zero (hscalar field hfield) room
  · obtain ⟨text, htext⟩ := hstrings member hmember hown
    rw [htext]
    simp [fits]

theorem Found.value?_eq {α : Type} {value : Json} (h : Found fields name value)
    (hvalue : value ≠ .null) (read : Json → Option α) :
    fields.value? name read none = read value := by
  rcases h with hlookup | ⟨-, hnull⟩
  · rw [Fields.value?, hlookup]
  · exact absurd hnull hvalue

theorem Found.value?_heldWord {α : Type} [Vocabulary α] {a : α}
    (h : Found fields name (word a)) : fields.value? name ofHeldWord? none = some a := by
  rw [h.value?_eq Json.noConfusion, ofHeldWord?_of_word]

theorem Found.value?_nullable {α : Type} [Vocabulary α] {a : Option α}
    (h : Found fields name (ofOption word a)) :
    fields.value? name (nullable? ofHeldWord?) (some none) = some a := by
  have hread := nullable?_ofOption ofHeldWord?_of_word a
  rcases h with hlookup | ⟨hlookup, hnull⟩
  · rw [Fields.value?, hlookup]
    exact hread
  · rw [hnull] at hread
    rw [Fields.value?, hlookup, ← hread]
    rfl

theorem Told.found {optional : List String} {value : Json}
    (h : Told Unrevised (absent optional) fields name value) : Found fields name value := by
  rcases h with ⟨other, rfl, hlookup⟩ | ⟨hlookup, habsent⟩
  · exact .inl hlookup
  · obtain ⟨_, -, heq⟩ := List.mem_map.mp (mem_members_record.mp habsent)
    exact .inr ⟨hlookup, (Prod.mk.inj heq).2.symm⟩

theorem tagged?_of_lookup {members : List (Key × Json)} (hfits : (object members).fits room = true)
    (hnamed : named? members = some fields) (honce : occurrences tag fields ≤ 1)
    (hlookup : fields.lookup tag = some (.string name)) :
    (object members).tagged? tag room = some (name, record (untagged tag fields)) := by
  rw [tagged?, hfits]
  simp only [Bool.not_true, Bool.false_eq_true, if_false, hnamed, Option.bind_eq_bind,
    Option.bind_some, filter_eq_singleton honce hlookup, untagged]

/-- However a tagged record of scalars is reshaped, its tag is found, and each field of its variant
or nothing, if it is absent. -/
theorem Reshaped.exists_fields {optional : List String} {rest : Fields}
    (h : Reshaped optional (record ((tag, .string name) :: rest)) json)
    (hnodup : (((tag, Json.string name) :: rest).map Prod.fst).Nodup)
    (hscalar : ∀ field ∈ rest, field.2.fits 0 = true) (room : Nat) :
    ∃ fields, json.tagged? tag (room + 1) = some (name, record fields) ∧
      (record fields).variantFields? (rest.map Prod.fst) = some fields ∧
      ∀ field ∈ rest, Found fields field.1 field.2 := by
  have hfits : json.fits (room + 1) = true := by
    refine fits_of_reshaped h ?_ room
    rw [List.forall_mem_cons]
    exact ⟨by simp [fits], hscalar⟩
  obtain ⟨fields, hfields, htold⟩ := h.1.exists_fields hnodup
  have htag : fields.lookup tag = some (.string name) := by
    rcases (htold tag _ List.mem_cons_self).found with hlookup | ⟨-, hnull⟩
    · exact hlookup
    · nomatch hnull
  obtain ⟨_, _, members, _⟩ := h.1
  rw [fields?, Option.filter_eq_some_iff] at hfields
  obtain ⟨hnamed, hunambiguous⟩ := hfields
  rw [List.map_cons, unambiguous, List.all_cons, Bool.and_eq_true, decide_eq_true_eq]
    at hunambiguous
  refine ⟨untagged tag fields, tagged?_of_lookup hfits hnamed hunambiguous.1 htag,
    fields?_record_of_unambiguous (unambiguous_untagged hunambiguous.2), ?_⟩
  intro field hfield
  have hne : field.1 ≠ tag := by
    intro heq
    have hgiven := List.mem_map_of_mem (f := Prod.fst) hfield
    rw [heq] at hgiven
    exact (List.nodup_cons.mp hnodup).1 hgiven
  rw [Found, lookup_untagged hne]
  exact (htold field.1 field.2 (List.mem_cons_of_mem _ hfield)).found

end Reading
end CombatAccuracy.Json
