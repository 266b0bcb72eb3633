import CombatAccuracy.Json.Fields
import CombatAccuracy.Proofs.Numerals
import CombatAccuracy.Proofs.Quoted
/-!
# Values read back

A value that is written as text is read back as the same value (`parse?_render`), provided the text
can tell it: its numbers are read back, it has no part without a text of its own, and its keys are
marked as escaped just where they need escapes. Reading takes less fuel than there is, for two steps
are granted for each character.
-/
namespace CombatAccuracy.Json

/-- Whether a number is read back from its text. -/
def ReadsBack (json : Json) : Prop :=
  number? (chars json) = some (json, [])

mutual

/-- Whether a value is told by its text. -/
def Legible : Json → Prop
  | .null | .bool _ | .string _ => True
  | .int n => ReadsBack (.int n)
  | .double x => ReadsBack (.double x)
  | .unreadable => False
  | .array elements => AllLegible elements
  | .object members => MembersLegible members

def AllLegible : List Json → Prop
  | [] => True
  | element :: elements => Legible element ∧ AllLegible elements

def MembersLegible : List (Key × Json) → Prop
  | [] => True
  | (key, value) :: members =>
    key = keyOfText (key.text?.getD "") ∧ Legible value ∧ MembersLegible members

end

theorem skipBlanks_cons {c : Char} (hc : isBlank c = false) (cs : List Char) :
    skipBlanks (c :: cs) = c :: cs :=
  List.dropWhile_cons_of_neg (by simp [hc])

theorem isBlank_of_sign_or_digit {c : Char} (hc : c = '-' ∨ c.isDigit = true) :
    isBlank c = false := by
  rw [Bool.eq_false_iff]
  intro hblank
  simp only [isBlank, Bool.or_eq_true, decide_eq_true_eq] at hblank
  rcases hblank with ((rfl | rfl) | rfl) | rfl <;> exact absurd hc (by decide)

theorem chars_eq_cons {json : Json} (hjson : json.Legible) :
    ∃ c cs, chars json = c :: cs ∧ isBlank c = false ∧ c ≠ ']' := by
  have hnumber : json.ReadsBack →
      ∃ c cs, chars json = c :: cs ∧ isBlank c = false ∧ c ≠ ']' := by
    intro hread
    obtain ⟨c, cs, hchars, hc⟩ := number?_eq_cons hread
    refine ⟨c, cs, hchars, isBlank_of_sign_or_digit hc, ?_⟩
    rintro rfl
    exact absurd hc (by decide)
  cases json with
  | null => exact ⟨'n', _, rfl, rfl, by decide⟩
  | bool value => cases value <;> exact ⟨_, _, rfl, rfl, by decide⟩
  | int n => exact hnumber (by simpa [Legible] using hjson)
  | double x => exact hnumber (by simpa [Legible] using hjson)
  | string s => exact ⟨'"', _, rfl, rfl, by decide⟩
  | array elements => exact ⟨'[', _, rfl, rfl, by decide⟩
  | object members => exact ⟨'{', _, rfl, rfl, by decide⟩
  | unreadable => simp [Legible] at hjson

theorem value?_of_number? {c : Char} {cs : List Char} (hc : c = '-' ∨ c.isDigit = true)
    (fuel : Nat) : value? (fuel + 1) (c :: cs) = number? (c :: cs) := by
  rw [value?, skipBlanks_cons (isBlank_of_sign_or_digit hc)]
  split
  all_goals first
    | rfl
    | (next heq =>
        obtain rfl := (List.cons.inj heq).1
        exact absurd hc (by decide))

theorem ReadsBack.value? {json : Json} (h : json.ReadsBack) (fuel : Nat) {rest : List Char}
    (hrest : endsNumber rest = true) :
    value? (fuel + 1) (chars json ++ rest) = some (json, rest) := by
  obtain ⟨c, cs, hchars, hc⟩ := number?_eq_cons h
  have hnumber := number?_append h hrest
  rw [hchars, List.cons_append] at hnumber ⊢
  rw [value?_of_number? hc, hnumber]
  rfl

theorem quote_append (text : String) (rest : List Char) :
    quote text ++ rest = '"' :: (text.toList.flatMap quoteChar ++ '"' :: rest) := by
  simp [quote]

theorem value?_quote (text : String) (fuel : Nat) (rest : List Char) :
    value? (fuel + 1) (quote text ++ rest) = some (.string text, rest) := by
  rw [quote_append, value?, skipBlanks_cons rfl]
  simp only [pieces?_flatMap, Option.map_some, ofPieces_map_ofChar]

theorem elementsText_cons_cons (element next : Json) (elements : List Json) :
    elementsText (element :: next :: elements) =
      chars element ++ ',' :: elementsText (next :: elements) := by
  rw [elementsText]
  exact List.cons_ne_nil next elements

theorem membersText_cons_cons (key : Key) (value : Json) (next : Key × Json)
    (members : List (Key × Json)) :
    membersText ((key, value) :: next :: members) =
      quote (key.text?.getD "") ++ ':' :: chars value ++ ',' :: membersText (next :: members) := by
  rw [membersText]
  exact List.cons_ne_nil next members

/-- What reading with some fuel finds again: values, the elements of an array that has any, and the
members of an object that has any, each written in at most half as many characters. -/
structure ReadsWithin (fuel : Nat) : Prop where
  value : ∀ (json : Json) (rest : List Char), json.Legible →
    2 * (chars json).length ≤ fuel → endsNumber rest = true →
    value? fuel (chars json ++ rest) = some (json, rest)
  elements : ∀ (element : Json) (elements : List Json) (rest : List Char),
    AllLegible (element :: elements) →
    2 * (elementsText (element :: elements)).length ≤ fuel →
    elements? fuel (elementsText (element :: elements) ++ rest) = some (element :: elements, rest)
  members : ∀ (member : Key × Json) (members : List (Key × Json)) (rest : List Char),
    MembersLegible (member :: members) →
    2 * (membersText (member :: members)).length ≤ fuel →
    members? fuel (membersText (member :: members) ++ rest) = some (member :: members, rest)

namespace ReadsWithin
variable {fuel : Nat}

theorem value_array (h : ReadsWithin fuel) (element : Json) (elements : List Json)
    (rest : List Char) (hlegible : AllLegible (element :: elements))
    (hfuel : 2 * (elementsText (element :: elements)).length ≤ fuel) :
    value? (fuel + 1) ('[' :: elementsText (element :: elements) ++ rest) =
      some (.array (element :: elements), rest) := by
  have hread := h.elements element elements rest hlegible hfuel
  obtain ⟨c, cs, htext, hblank, hclose⟩ : ∃ c cs,
      elementsText (element :: elements) ++ rest = c :: cs ∧ isBlank c = false ∧ c ≠ ']' := by
    simp only [AllLegible] at hlegible
    obtain ⟨c, cs, hchars, hblank, hclose⟩ := chars_eq_cons hlegible.1
    cases elements with
    | nil => exact ⟨c, _, by rw [elementsText, hchars]; rfl, hblank, hclose⟩
    | cons next elements =>
      exact ⟨c, _, by rw [elementsText_cons_cons, hchars]; rfl, hblank, hclose⟩
  rw [List.cons_append, value?, skipBlanks_cons rfl]
  rw [htext] at hread ⊢
  simp only [skipBlanks_cons hblank]
  split
  · next heq => exact absurd (List.cons.inj heq).1 hclose
  · rw [hread]
    rfl

theorem value_object (h : ReadsWithin fuel) (member : Key × Json) (members : List (Key × Json))
    (rest : List Char) (hlegible : MembersLegible (member :: members))
    (hfuel : 2 * (membersText (member :: members)).length ≤ fuel) :
    value? (fuel + 1) ('{' :: membersText (member :: members) ++ rest) =
      some (.object (member :: members), rest) := by
  have hread := h.members member members rest hlegible hfuel
  obtain ⟨cs, htext⟩ : ∃ cs, membersText (member :: members) ++ rest = '"' :: cs := by
    obtain ⟨key, value⟩ := member
    cases members with
    | nil => exact ⟨_, by rw [membersText]; rfl⟩
    | cons next members => exact ⟨_, by rw [membersText_cons_cons]; rfl⟩
  rw [List.cons_append, value?, skipBlanks_cons rfl]
  rw [htext] at hread ⊢
  simp only [skipBlanks_cons (c := '"') rfl]
  split
  · next heq => exact absurd (List.cons.inj heq).1 (by decide)
  · rw [hread]
    rfl

theorem value_succ (h : ReadsWithin fuel) (json : Json) (rest : List Char)
    (hlegible : json.Legible) (hfuel : 2 * (chars json).length ≤ fuel + 1)
    (hrest : endsNumber rest = true) :
    value? (fuel + 1) (chars json ++ rest) = some (json, rest) := by
  cases json with
  | null => rfl
  | bool value => cases value <;> rfl
  | int n => exact ReadsBack.value? (by simpa [Legible] using hlegible) fuel hrest
  | string text => exact value?_quote text fuel rest
  | double x => exact ReadsBack.value? (by simpa [Legible] using hlegible) fuel hrest
  | unreadable => simp [Legible] at hlegible
  | array elements =>
    cases elements with
    | nil => rfl
    | cons element elements =>
      simp only [chars, List.length_cons] at hfuel ⊢
      exact h.value_array element elements rest hlegible (by omega)
  | object members =>
    cases members with
    | nil => rfl
    | cons member members =>
      simp only [chars, List.length_cons] at hfuel ⊢
      exact h.value_object member members rest hlegible (by omega)

theorem elements_succ (h : ReadsWithin fuel) (element : Json) (elements : List Json)
    (rest : List Char) (hlegible : AllLegible (element :: elements))
    (hfuel : 2 * (elementsText (element :: elements)).length ≤ fuel + 1) :
    elements? (fuel + 1) (elementsText (element :: elements) ++ rest) =
      some (element :: elements, rest) := by
  simp only [AllLegible] at hlegible
  cases elements with
  | nil =>
    simp only [elementsText, List.length_append, List.length_singleton] at hfuel
    have hvalue := h.value element (']' :: rest) hlegible.1 (by omega) rfl
    simp only [elementsText, List.append_assoc, List.singleton_append, elements?, hvalue,
      Option.bind_eq_bind, Option.bind_some, skipBlanks_cons (c := ']') rfl]
  | cons next elements =>
    simp only [elementsText_cons_cons, List.length_append, List.length_cons] at hfuel
    have hvalue := h.value element (',' :: (elementsText (next :: elements) ++ rest)) hlegible.1
      (by omega) rfl
    have hothers := h.elements next elements rest (by simpa [AllLegible] using hlegible.2)
      (by omega)
    simp only [elementsText_cons_cons, List.append_assoc, List.cons_append, elements?, hvalue,
      Option.bind_eq_bind, Option.bind_some, skipBlanks_cons (c := ',') rfl, hothers,
      Option.map_some]

theorem members?_quote_last (text : String) {cs rest : List Char} {value : Json}
    (hvalue : value? fuel cs = some (value, '}' :: rest)) :
    members? (fuel + 1) (quote text ++ ':' :: cs) = some ([(keyOfText text, value)], rest) := by
  rw [quote_append, members?, skipBlanks_cons rfl]
  simp only [pieces?_flatMap, keyOfPieces_map_ofChar, skipBlanks_cons (c := ':') rfl, hvalue,
    skipBlanks_cons (c := '}') rfl, Option.bind_eq_bind, Option.bind_some]

theorem members?_quote_next (text : String) {cs next rest : List Char} {value : Json}
    {members : List (Key × Json)} (hvalue : value? fuel cs = some (value, ',' :: next))
    (hmembers : members? fuel next = some (members, rest)) :
    members? (fuel + 1) (quote text ++ ':' :: cs) =
      some ((keyOfText text, value) :: members, rest) := by
  rw [quote_append, members?, skipBlanks_cons rfl]
  simp only [pieces?_flatMap, keyOfPieces_map_ofChar, skipBlanks_cons (c := ':') rfl, hvalue,
    skipBlanks_cons (c := ',') rfl, hmembers, Option.bind_eq_bind, Option.bind_some,
    Option.map_some]

theorem members_succ (h : ReadsWithin fuel) (member : Key × Json) (members : List (Key × Json))
    (rest : List Char) (hlegible : MembersLegible (member :: members))
    (hfuel : 2 * (membersText (member :: members)).length ≤ fuel + 1) :
    members? (fuel + 1) (membersText (member :: members) ++ rest) =
      some (member :: members, rest) := by
  obtain ⟨key, value⟩ := member
  simp only [MembersLegible] at hlegible
  obtain ⟨hkey, hvalue, hmembers⟩ := hlegible
  cases members with
  | nil =>
    have htext : membersText [(key, value)] ++ rest =
        quote (key.text?.getD "") ++ ':' :: (chars value ++ '}' :: rest) := by
      simp only [membersText, List.append_assoc, List.cons_append, List.nil_append]
    simp only [membersText, List.length_append, List.length_cons, List.length_nil] at hfuel
    have hread := h.value value ('}' :: rest) hvalue (by omega) rfl
    rw [htext, members?_quote_last _ hread, ← hkey]
  | cons next members =>
    have htext : membersText ((key, value) :: next :: members) ++ rest =
        quote (key.text?.getD "") ++ ':' ::
          (chars value ++ ',' :: (membersText (next :: members) ++ rest)) := by
      simp only [membersText_cons_cons, List.append_assoc, List.cons_append]
    simp only [membersText_cons_cons, List.length_append, List.length_cons] at hfuel
    have hread := h.value value (',' :: (membersText (next :: members) ++ rest)) hvalue
      (by omega) rfl
    have hothers := h.members next members rest hmembers (by omega)
    rw [htext, members?_quote_next _ hread hothers, ← hkey]

end ReadsWithin

/-- By induction on the fuel: a step down into an array or an object, and a step on to the next of
its parts, each leave less text than they take fuel. -/
theorem readsWithin (fuel : Nat) : ReadsWithin fuel := by
  induction fuel with
  | zero =>
    constructor
    · intro json rest hlegible hfuel hrest
      obtain ⟨c, cs, hchars, -, -⟩ := chars_eq_cons hlegible
      simp [hchars] at hfuel
    · intro element elements rest hlegible hfuel
      cases elements with
      | nil => simp [elementsText] at hfuel
      | cons next elements => simp [elementsText_cons_cons] at hfuel
    · intro member members rest hlegible hfuel
      obtain ⟨key, value⟩ := member
      cases members with
      | nil => simp [membersText] at hfuel
      | cons next members => simp [membersText_cons_cons] at hfuel
  | succ fuel ih => exact ⟨ih.value_succ, ih.elements_succ, ih.members_succ⟩

/-- A legible value is what its text is read as. -/
theorem parse?_render (json : Json) (hjson : json.Legible) :
    parse? (render json) = some json := by
  have hread := (readsWithin (2 * (chars json).length + 1)).value json [] hjson (by omega) rfl
  rw [List.append_nil] at hread
  simp only [parse?, render, String.toList_ofList, hread]
  rfl

theorem legible_record {fields : List (String × Json)}
    (hnames : ∀ name ∈ fields.map Prod.fst, name.toList.all isPlain = true)
    (hvalues : ∀ value ∈ fields.map Prod.snd, value.Legible) :
    (record fields).Legible := by
  rw [record, Legible]
  induction fields with
  | nil => trivial
  | cons field fields ih =>
    rw [List.map_cons, List.forall_mem_cons] at hnames hvalues
    have hkey : Key.plain field.1 = keyOfText field.1 := by
      rw [keyOfText, if_pos hnames.1]
    exact ⟨hkey, hvalues.1, ih hnames.2 hvalues.2⟩

theorem legible_variant {name : String} {body : Json} (hname : name.toList.all isPlain = true)
    (hbody : body.Legible) : (record [(name, body)]).Legible :=
  legible_record (List.forall_mem_singleton.mpr hname) (List.forall_mem_singleton.mpr hbody)

theorem legible_word {α : Type} [Vocabulary α] (a : α) : (word a).Legible :=
  trivial

theorem legible_ofOption {α : Type} [Vocabulary α] (a : Option α) :
    (ofOption word a).Legible := by
  cases a <;> trivial

theorem legible_int {n : Int} (hlow : Int64.minValue.toInt ≤ n) (hhigh : n < UInt64.size) :
    Legible (.int n) :=
  number?_integerText hlow hhigh

theorem legible_int32 (n : Int32) : Legible (.int n.toInt) := by
  have hleast : Int64.minValue.toInt ≤ Int32.minValue.toInt := by decide
  have hmost : Int32.maxValue.toInt < UInt64.size := by decide
  have hlow := n.minValue_le_toInt
  have hhigh := n.toInt_le
  exact legible_int (by omega) (by omega)

theorem legible_uint32 (n : UInt32) : Legible (.int n.toNat) := by
  have hleast : Int64.minValue.toInt ≤ 0 := by decide
  have hmost : UInt32.size < UInt64.size := by decide
  have hlt := n.toNat_lt_size
  exact legible_int (by omega) (by omega)

end CombatAccuracy.Json
