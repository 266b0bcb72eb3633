import CombatAccuracy.NamedAttack
/-!
# Replays

A run decides one request after another from one source. Whatever is asked, in whatever form, each
request takes a single draw with the same bound, so its answer depends on its chance and on its
place in the run alone (`decideAll_value`). The other requests of a run may be replaced without a
change to it, and a better chance in its place never loses a hit (`decideAll_replay`).
-/
namespace CombatAccuracy

/-- An attack in the parameters of its sort alone. -/
inductive NamedAttack where
  | melee (attack : MeleeAttack)
  | ranged (attack : RangedAttack)
  | spell (cast : SpellCast)
  | staff (attack : StaffAttack)
  | magic
  | magicalMelee (attackType : Option MeleeType) (style : Option MeleeStyle) (multiplier : Float)
  | rangedMelee (attackType : Option MeleeType) (style : Option MeleeStyle)
      (blockType : Option RangedType) (multiplier : Float)
  | rangedMagic (style : Option MagicStyle) (blockType : Option RangedType) (multiplier : Float)
  | magicalRanged (attackType : Option RangedType) (style : Option RangedStyle) (multiplier : Float)

namespace NamedAttack

def attack : NamedAttack → Attack
  | .melee attack => .melee attack
  | .ranged attack => .ranged attack
  | .spell cast => .magic (.spell cast)
  | .staff attack => .magic (.staff attack)
  | .magic => .magic .innate
  | .magicalMelee attackType style multiplier =>
    .multiStyle (.magicalMelee attackType style multiplier)
  | .rangedMelee attackType style blockType multiplier =>
    .multiStyle (.rangedMelee attackType style blockType multiplier)
  | .rangedMagic style blockType multiplier => .multiStyle (.rangedMagic style blockType multiplier)
  | .magicalRanged attackType style multiplier =>
    .multiStyle (.magicalRanged attackType style multiplier)

def roll {σ : Type} [RandomSource σ] (evaluator : Evaluator) (attacker defender : Combatant) :
    NamedAttack → StateT σ Traced Bool
  | .melee attack => evaluator.rollMelee attacker defender attack
  | .ranged attack => evaluator.rollRanged attacker defender attack
  | .spell cast => evaluator.rollSpell attacker defender cast
  | .staff attack => evaluator.rollStaff attacker defender attack
  | .magic => evaluator.rollMagic attacker defender
  | .magicalMelee attackType style multiplier =>
    evaluator.rollMagicalMelee attacker defender attackType style multiplier
  | .rangedMelee attackType style blockType multiplier =>
    evaluator.rollRangedMelee attacker defender attackType style blockType multiplier
  | .rangedMagic style blockType multiplier =>
    evaluator.rollRangedMagic attacker defender style blockType multiplier
  | .magicalRanged attackType style multiplier =>
    evaluator.rollMagicalRanged attacker defender attackType style multiplier

theorem roll_eq {σ : Type} [RandomSource σ] (evaluator : Evaluator) (attacker defender : Combatant)
    (named : NamedAttack) :
    named.roll evaluator attacker defender =
      (evaluator.roll ⟨attacker, defender, named.attack⟩ : StateT σ Traced Bool) := by
  cases named <;> rfl

end NamedAttack

/-- A decision to be made by an evaluator: of an engagement, or of an attack by name. -/
inductive Request where
  | any (evaluator : Evaluator) (engagement : Engagement)
  | byName (evaluator : Evaluator) (attacker defender : Combatant) (named : NamedAttack)

namespace Request

/-- The chance to hit of what is asked for, as an engagement. -/
def chance : Request → HitChance
  | .any evaluator engagement => (evaluator.hitChance engagement).value
  | .byName evaluator attacker defender named =>
    (evaluator.hitChance ⟨attacker, defender, named.attack⟩).value

section Decisions
variable {σ : Type} [RandomSource σ]

def decide : Request → StateT σ Traced Bool
  | .any evaluator engagement => evaluator.roll engagement
  | .byName evaluator attacker defender named => named.roll evaluator attacker defender

/-- Requests decided in order from one source. -/
def decideAll : List Request → StateT σ Traced (List Bool)
  | [] => pure []
  | request :: rest => do
    let hit ← request.decide
    let hits ← decideAll rest
    pure (hit :: hits)

theorem decide_value (request : Request) (source : σ) :
    (request.decide source).value =
      (request.chance.beats (RandomSource.draw 10000 source).1,
        (RandomSource.draw 10000 source).2) := by
  cases request with
  | any evaluator engagement => exact HitChance.decide_value _ source
  | byName evaluator attacker defender named =>
    rw [decide, NamedAttack.roll_eq]
    exact HitChance.decide_value _ source

/-- A run sets each request against the draw at its place, and leaves the source where as many draws
leave it. -/
theorem decideAll_value (requests : List Request) (source : σ) :
    (decideAll requests source).value =
      (requests.zipWith (fun request draw => request.chance.beats draw)
          (RandomSource.drawMany 10000 requests.length source).1,
        (RandomSource.drawMany 10000 requests.length source).2) := by
  induction requests generalizing source with
  | nil => rfl
  | cons request rest ih =>
    have hcons : (decideAll (request :: rest) source).value =
        ((request.decide source).value.1 ::
            (decideAll rest (request.decide source).value.2).value.1,
          (decideAll rest (request.decide source).value.2).value.2) :=
      rfl
    rw [hcons, ih, decide_value, List.length_cons,
      RandomSource.drawMany_succ, List.zipWith_cons_cons]

theorem decideAll_set_value (requests : List Request) (i : Nat) (other : Request) (source : σ) :
    (decideAll (requests.set i other) source).value =
      ((requests.set i other).zipWith (fun request draw => request.chance.beats draw)
          (RandomSource.drawMany 10000 requests.length source).1,
        (RandomSource.drawMany 10000 requests.length source).2) := by
  rw [decideAll_value, List.length_set]

/-- The answers of a run are told by the draws from its source: each is true exactly when its
request's chance exceeds the draw at its place. So to replace a request changes no other answer, nor
where the source ends, and a chance at least as high in its place keeps its hit. -/
theorem decideAll_replay (requests : List Request) (source : σ) :
    let run := (decideAll requests source).value
    let draws := RandomSource.drawMany 10000 requests.length source
    (run.1.length = requests.length ∧ draws.1.length = requests.length ∧ run.2 = draws.2) ∧
    (∀ (i : Nat) (request : Request) (draw : UInt32), requests[i]? = some request →
      draws.1[i]? = some draw →
      (run.1[i]? = some true ↔ draw.toNat < request.chance.points)) ∧
    ∀ (i : Nat) (other : Request),
      let changed := (decideAll (requests.set i other) source).value
      changed.2 = run.2 ∧
        (∀ j, j ≠ i → changed.1[j]? = run.1[j]?) ∧
        ∀ request, requests[i]? = some request → request.chance.points ≤ other.chance.points →
          run.1[i]? = some true → changed.1[i]? = some true := by
  intro run draws
  have hlength : draws.1.length = requests.length := RandomSource.length_drawMany _ _ _
  have hrun : run = (requests.zipWith (fun request draw => request.chance.beats draw) draws.1,
      draws.2) := decideAll_value requests source
  have hanswer : ∀ (i : Nat) (request : Request) (draw : UInt32), requests[i]? = some request →
      draws.1[i]? = some draw → (run.1[i]? = some true ↔ draw.toNat < request.chance.points) := by
    intro i request draw hrequest hdraw
    rw [hrun, List.getElem?_zipWith, hrequest, hdraw]
    simp [HitChance.beats]
  refine ⟨⟨?_, hlength, ?_⟩, hanswer, ?_⟩
  · rw [hrun, List.length_zipWith, hlength, Nat.min_self]
  · rw [hrun]
  · intro i other changed
    have hchanged : changed = ((requests.set i other).zipWith
        (fun request draw => request.chance.beats draw) draws.1, draws.2) :=
      decideAll_set_value requests i other source
    refine ⟨?_, ?_, ?_⟩
    · rw [hchanged, hrun]
    · intro j hj
      rw [hchanged, hrun, List.getElem?_zipWith, List.getElem?_zipWith,
        List.getElem?_set_ne hj.symm]
    · intro request hrequest hle hhit
      have hi : i < requests.length := (List.getElem?_eq_some_iff.mp hrequest).1
      have hdraw : draws.1[i]? = some draws.1[i] := List.getElem?_eq_getElem (hlength ▸ hi)
      have hbeats := (hanswer i request _ hrequest hdraw).mp hhit
      rw [hchanged, List.getElem?_zipWith, List.getElem?_set_self hi, hdraw]
      simp only [HitChance.beats, Option.some.injEq, decide_eq_true_eq]
      omega

end Decisions

theorem decideAll_replay_scripted :
    let attributes (level : Int32) : Attributes :=
      { meleeLevel := fun _ => level
        rangedLevel := fun _ => level
        magicLevel := fun _ => level
        defenceLevel := fun _ => level
        offenceBonus := fun _ => -63
        defenceBonus := fun _ => -63
        stance := .melee .slash .accurate }
    let evaluator : Evaluator := ⟨0, fun _ _ => .magic⟩
    let strike (level : Int32) : Request :=
      .byName evaluator ⟨.player, attributes level⟩ ⟨.npc, attributes 50⟩ (.melee {})
    let shot : Request :=
      .any evaluator ⟨⟨.npc, attributes 80⟩, ⟨.player, attributes 50⟩, .ranged {}⟩
    let source : Script := { answers := [9999, 7425] }
    let answers (level : Int32) : List Bool := (decideAll [shot, strike level] source).value.1
    (answers 100)[1]? = some true ∧ (answers 120)[1]? = some true ∧
      (answers 120)[0]? = (answers 100)[0]? := by
  intro attributes evaluator strike shot source answers
  have hreplay := decideAll_replay [shot, strike 100] source
  have hhit : (answers 100)[1]? = some true :=
    (hreplay.2.1 1 (strike 100) 7425 rfl rfl).mpr (by decide)
  have hset := hreplay.2.2 1 (strike 120)
  have hkept : (answers 120)[1]? = some true :=
    hset.2.2 (strike 100) rfl (by decide) hhit
  exact ⟨hhit, hkept, hset.2.1 0 (by decide)⟩

end Request
end CombatAccuracy
