import CombatAccuracy.Proofs.Replay
import CombatAccuracy.Proofs.Trace
import Mathlib.Logic.Function.Basic
/-!
# Asking by name

An attack may be asked about by its name, with its own parameters only, or as an engagement. Names
and attacks correspond one to one, and the two ways of asking cannot be told apart: they agree in
value and in trace, and for decisions in where they leave the source, question by question and over
whole runs (`byName_agrees`).
-/
namespace CombatAccuracy

namespace NamedAttack

def hitChance (evaluator : Evaluator) (attacker defender : Combatant) :
    NamedAttack → Traced HitChance
  | .melee attack => evaluator.meleeHitChance attacker defender attack
  | .ranged attack => evaluator.rangedHitChance attacker defender attack
  | .spell cast => evaluator.spellHitChance attacker defender cast
  | .staff attack => evaluator.staffHitChance attacker defender attack
  | .magic => evaluator.magicHitChance attacker defender
  | .magicalMelee attackType style multiplier =>
    evaluator.magicalMeleeHitChance attacker defender attackType style multiplier
  | .rangedMelee attackType style blockType multiplier =>
    evaluator.rangedMeleeHitChance attacker defender attackType style blockType multiplier
  | .rangedMagic style blockType multiplier =>
    evaluator.rangedMagicHitChance attacker defender style blockType multiplier
  | .magicalRanged attackType style multiplier =>
    evaluator.magicalRangedHitChance attacker defender attackType style multiplier

theorem hitChance_eq (evaluator : Evaluator) (attacker defender : Combatant)
    (named : NamedAttack) :
    named.hitChance evaluator attacker defender =
      evaluator.hitChance ⟨attacker, defender, named.attack⟩ := by
  cases named <;> rfl

/-- The name of an attack. -/
def ofAttack : Attack → NamedAttack
  | .melee attack => .melee attack
  | .ranged attack => .ranged attack
  | .magic (.spell cast) => .spell cast
  | .magic (.staff attack) => .staff attack
  | .magic .innate => .magic
  | .multiStyle (.magicalMelee attackType style multiplier) =>
    .magicalMelee attackType style multiplier
  | .multiStyle (.rangedMelee attackType style blockType multiplier) =>
    .rangedMelee attackType style blockType multiplier
  | .multiStyle (.rangedMagic style blockType multiplier) =>
    .rangedMagic style blockType multiplier
  | .multiStyle (.magicalRanged attackType style multiplier) =>
    .magicalRanged attackType style multiplier

theorem ofAttack_attack (named : NamedAttack) : ofAttack named.attack = named := by
  cases named <;> rfl

theorem attack_ofAttack (attack : Attack) : (ofAttack attack).attack = attack := by
  cases attack with
  | melee attack | ranged attack => rfl
  | magic attack | multiStyle attack => cases attack <;> rfl

end NamedAttack

/-- A question to an evaluator about an attack by name. -/
inductive NamedQuery where
  | chance (evaluator : Evaluator) (attacker defender : Combatant) (named : NamedAttack)
  | hit (evaluator : Evaluator) (attacker defender : Combatant) (named : NamedAttack)

namespace NamedQuery

/-- The question about the engagement that the attack makes. -/
def query : NamedQuery → Query
  | .chance evaluator attacker defender named =>
    .chance evaluator ⟨attacker, defender, named.attack⟩
  | .hit evaluator attacker defender named => .hit evaluator ⟨attacker, defender, named.attack⟩

section Runs
variable {σ : Type} [RandomSource σ]

def ask : NamedQuery → StateT σ Traced Answer
  | .chance evaluator attacker defender named => do
    return .chance (← named.hitChance evaluator attacker defender)
  | .hit evaluator attacker defender named => do
    return .hit (← named.roll evaluator attacker defender)

def askAll : List NamedQuery → StateT σ Traced (List Answer)
  | [] => pure []
  | query :: rest => do
    let answer ← query.ask
    let answers ← askAll rest
    pure (answer :: answers)

theorem ask_eq (named : NamedQuery) : named.ask = (named.query.ask : StateT σ Traced Answer) := by
  cases named with
  | chance evaluator attacker defender named => rw [ask, NamedAttack.hitChance_eq]; rfl
  | hit evaluator attacker defender named => rw [ask, NamedAttack.roll_eq]; rfl

theorem askAll_eq (queries : List NamedQuery) :
    askAll queries = (Query.askAll (queries.map query) : StateT σ Traced (List Answer)) := by
  induction queries with
  | nil => rfl
  | cons named queries ih =>
    rw [askAll, ask_eq, ih]
    rfl

end Runs
end NamedQuery

/-- Every attack has one name and every name one attack. To ask for a chance by name is to ask for
that of the engagement, with the same value and trace; to roll by name is to roll it, with the same
answer, trace and source left behind. So any run of questions by name is the run of those about the
engagements, from whatever source. -/
theorem byName_agrees {σ : Type} [RandomSource σ] :
    Function.Bijective NamedAttack.attack ∧
    (∀ (evaluator : Evaluator) (attacker defender : Combatant) (named : NamedAttack),
      named.hitChance evaluator attacker defender =
        evaluator.hitChance ⟨attacker, defender, named.attack⟩) ∧
    (∀ (evaluator : Evaluator) (attacker defender : Combatant) (named : NamedAttack) (source : σ),
      named.roll evaluator attacker defender source =
        evaluator.roll ⟨attacker, defender, named.attack⟩ source) ∧
    ∀ (queries : List NamedQuery) (source : σ),
      NamedQuery.askAll queries source = Query.askAll (queries.map NamedQuery.query) source := by
  refine ⟨?_, NamedAttack.hitChance_eq, ?_, ?_⟩
  · refine Function.bijective_iff_has_inverse.mpr ⟨NamedAttack.ofAttack, ?_, ?_⟩
    · exact NamedAttack.ofAttack_attack
    · exact NamedAttack.attack_ofAttack
  · intro evaluator attacker defender named source
    rw [NamedAttack.roll_eq]
  · intro queries source
    rw [NamedQuery.askAll_eq]

end CombatAccuracy
