import CombatAccuracy.Event
import CombatAccuracy.Random.Source
/-!
# Evaluation

An evaluator holds the reference data and answers engagements: their rolls, their chance to hit, and
whether a draw from a source makes them hit. Each chance and each decision is traced, so the events
alone account for what was decided.
-/
namespace CombatAccuracy

/-- An attack by one combatant on another. -/
structure Engagement where
  attacker : Combatant
  defender : Combatant
  attack : Attack

namespace Engagement

def matchup (engagement : Engagement) : Matchup :=
  .of engagement.attacker.kind engagement.defender.kind

/-- The key of the formula that applies. -/
def key (engagement : Engagement) : FormulaKey :=
  ⟨engagement.matchup, engagement.attack.attackClass⟩

end Engagement

/-- One draw decides whether an attack with a given chance hits. -/
def HitChance.decide {σ : Type} [RandomSource σ] (chance : HitChance) : StateT σ Traced Bool :=
  fun source => do
    let (draw, source) := RandomSource.draw (UInt32.ofNat scale) source
    let hit := chance.beats draw
    Traced.emit (.decided chance draw hit)
    return (hit, source)

theorem HitChance.decide_value {σ : Type} [RandomSource σ] (chance : HitChance) (source : σ) :
    (chance.decide source).value =
      (chance.beats (RandomSource.draw 10000 source).1, (RandomSource.draw 10000 source).2) :=
  rfl

structure Evaluator where
  reference : MagicReference

namespace Evaluator

/-- What the tables' entry that an engagement selects reports and finds. -/
def selected (evaluator : Evaluator) (engagement : Engagement) : FormulaKey × Rolls :=
  engagement.matchup.entry engagement.attacker.attributes engagement.defender.attributes
    evaluator.reference engagement.attack

def rolls (evaluator : Evaluator) (engagement : Engagement) : Rolls :=
  engagement.matchup.rolls engagement.attacker.attributes engagement.defender.attributes
    evaluator.reference engagement.attack

section Dispatch
variable (evaluator : Evaluator) (attacker defender : Combatant)

@[simp] theorem rolls_melee (attack : MeleeAttack) :
    evaluator.rolls ⟨attacker, defender, .melee attack⟩ =
      (Formula.melee attacker.kind defender.kind).rolls
        ⟨attacker.attributes, defender.attributes, attack, evaluator.reference⟩ := by
  simp [rolls, Engagement.matchup, Matchup.rolls, Matchup.entry, Formula.apply, Formula.meleeTable]

@[simp] theorem rolls_ranged (attack : RangedAttack) :
    evaluator.rolls ⟨attacker, defender, .ranged attack⟩ =
      (Formula.ranged attacker.kind defender.kind).rolls
        ⟨attacker.attributes, defender.attributes, attack, evaluator.reference⟩ := by
  simp [rolls, Engagement.matchup, Matchup.rolls, Matchup.entry, Formula.apply, Formula.rangedTable]

@[simp] theorem rolls_magic (attack : MagicAttack) :
    evaluator.rolls ⟨attacker, defender, .magic attack⟩ =
      (Formula.magic attacker.kind defender.kind).rolls
        ⟨attacker.attributes, defender.attributes, attack, evaluator.reference⟩ := by
  simp [rolls, Engagement.matchup, Matchup.rolls, Matchup.entry, Formula.apply, Formula.magicTable]

@[simp] theorem rolls_multiStyle (attack : MultiStyleAttack) :
    evaluator.rolls ⟨attacker, defender, .multiStyle attack⟩ =
      (Formula.multiStyle attacker.kind defender.kind).rolls
        ⟨attacker.attributes, defender.attributes, attack, evaluator.reference⟩ := by
  simp [rolls, Engagement.matchup, Matchup.rolls, Matchup.entry, Formula.apply,
    Formula.multiStyleTable]

end Dispatch

/-- The rolls of an engagement, as they are asked for. -/
def tracedRolls (evaluator : Evaluator) (engagement : Engagement) : Traced Rolls :=
  return evaluator.rolls engagement

def hitChance (evaluator : Evaluator) (engagement : Engagement) : Traced HitChance := do
  let rolls ← evaluator.tracedRolls engagement
  let chance := rolls.hitChance
  Traced.emit (.evaluated engagement.key rolls chance)
  return chance

theorem hitChance_congr {evaluator other : Evaluator} {first second : Engagement}
    (hkey : first.key = second.key) (hrolls : evaluator.rolls first = other.rolls second) :
    evaluator.hitChance first = other.hitChance second := by
  unfold hitChance tracedRolls
  rw [hkey, hrolls]

/-- Whether an engagement hits: its chance, decided by one draw. -/
def roll {σ : Type} [RandomSource σ] (evaluator : Evaluator) (engagement : Engagement) :
    StateT σ Traced Bool := do
  let chance ← evaluator.hitChance engagement
  chance.decide

/-- Engagements decided in order from one source. -/
def rollAll {σ : Type} [RandomSource σ] :
    List (Evaluator × Engagement) → StateT σ Traced (List Bool)
  | [] => pure []
  | (evaluator, engagement) :: rest => do
    let hit ← evaluator.roll engagement
    let hits ← rollAll rest
    pure (hit :: hits)

/-- An evaluator as text: its reference data may be anything, so none is shown. -/
def describe (_ : Evaluator) : String :=
  "AccuracyFormulae \x7b .. \x7d"

end Evaluator
end CombatAccuracy
