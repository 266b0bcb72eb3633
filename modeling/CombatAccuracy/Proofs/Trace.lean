import CombatAccuracy.Codec.Event
import CombatAccuracy.Evaluator
/-!
# What a trace tells

An evaluator is asked for rolls, for chances and for decisions, in any order, and only its trace is
kept. The rolls leave nothing there. Every decision leaves the event of its chance and then its own,
so a reader who knows no request, no source and no answer finds each decision again by reducing the
rolls of the first event and comparing with the draw of the second (`trace_explains_answers`).
-/
namespace CombatAccuracy

/-- The letter of a kind in the label of a formula. -/
def CombatantKind.letter : CombatantKind → String
  | .player => "p"
  | .npc => "n"

namespace Evaluator

theorem selected_eq (evaluator : Evaluator) (engagement : Engagement) :
    evaluator.selected engagement = (engagement.key, evaluator.rolls engagement) :=
  Matchup.entry_eq _ _ _ _ _

/-- What a decision leaves in the trace when its draw is known. -/
def account (evaluator : Evaluator) (engagement : Engagement) (draw : UInt32) : List Event :=
  let rolls := evaluator.rolls engagement
  let chance := HitChance.ofRolls rolls.attack rolls.defence
  [.evaluated engagement.key rolls chance,
    .decided chance draw (decide (draw.toNat < chance.points))]

theorem roll_events {σ : Type} [RandomSource σ] (evaluator : Evaluator) (engagement : Engagement)
    (source : σ) :
    (evaluator.roll engagement source).events =
      evaluator.account engagement (RandomSource.draw 10000 source).1 :=
  rfl

theorem rollAll_cons_events {σ : Type} [RandomSource σ] (evaluator : Evaluator)
    (engagement : Engagement) (rest : List (Evaluator × Engagement)) (source : σ) :
    (rollAll ((evaluator, engagement) :: rest) source).events =
      (evaluator.roll engagement source).events ++
        (rollAll rest (RandomSource.draw 10000 source).2).events := by
  have hbind : (rollAll ((evaluator, engagement) :: rest) source).events =
      (evaluator.roll engagement source).events ++
        ((rollAll rest (RandomSource.draw 10000 source).2).events ++ []) :=
    rfl
  rw [hbind, List.append_nil]

theorem rollAll_events {σ : Type} [RandomSource σ] (calls : List (Evaluator × Engagement))
    (source : σ) :
    (rollAll calls source).events =
      (calls.zip (RandomSource.drawMany 10000 calls.length source).1).flatMap
        fun (call, draw) => call.1.account call.2 draw := by
  induction calls generalizing source with
  | nil => rfl
  | cons call calls ih =>
    obtain ⟨evaluator, engagement⟩ := call
    rw [rollAll_cons_events, roll_events, ih, List.length_cons, RandomSource.drawMany_succ,
      List.zip_cons_cons, List.flatMap_cons]

end Evaluator

theorem Engagement.label_key (engagement : Engagement) :
    engagement.key.label =
      engagement.attacker.kind.letter ++ "v" ++ engagement.defender.kind.letter ++ "_" ++
        engagement.attack.attackClass.label := by
  obtain ⟨⟨attacker, _⟩, ⟨defender, _⟩, attack⟩ := engagement
  cases attacker <;> cases defender <;> rfl

/-- A question to an evaluator about an engagement. -/
inductive Query where
  | rolls (evaluator : Evaluator) (engagement : Engagement)
  | chance (evaluator : Evaluator) (engagement : Engagement)
  | hit (evaluator : Evaluator) (engagement : Engagement)

inductive Answer where
  | rolls (rolls : Rolls)
  | chance (chance : HitChance)
  | hit (hit : Bool)

/-- The decision in an answer that is one. -/
def Answer.hit? : Answer → Option Bool
  | .hit answer => some answer
  | _ => none

namespace Query
variable {σ : Type} [RandomSource σ]

def ask : Query → StateT σ Traced Answer
  | .rolls evaluator engagement => do return .rolls (← evaluator.tracedRolls engagement)
  | .chance evaluator engagement => do return .chance (← evaluator.hitChance engagement)
  | .hit evaluator engagement => do return .hit (← evaluator.roll engagement)

/-- Questions asked in order, with one source. -/
def askAll : List Query → StateT σ Traced (List Answer)
  | [] => pure []
  | query :: rest => do
    let answer ← query.ask
    let answers ← askAll rest
    pure (answer :: answers)

/-- How many events a question leaves in the trace. -/
def footprint : Query → Nat
  | .rolls .. => 0
  | .chance .. => 1
  | .hit .. => 2

def footprints : List Query → Nat
  | [] => 0
  | query :: rest => query.footprint + footprints rest

end Query

/-- The decisions that a trace tells: of each evaluation with the draw right after it, whether the
reduction of its rolls exceeds that draw. -/
def Event.decisions : List Event → List Bool
  | .evaluated _ rolls _ :: .decided _ draw _ :: rest =>
    decide (draw.toNat < (HitChance.ofRolls rolls.attack rolls.defence).points) :: decisions rest
  | _ :: rest => decisions rest
  | [] => []

namespace Query
variable {σ : Type} [RandomSource σ]

theorem askAll_cons_value (query : Query) (rest : List Query) (source : σ) :
    (askAll (query :: rest) source).value =
      ((query.ask source).value.1 :: (askAll rest (query.ask source).value.2).value.1,
        (askAll rest (query.ask source).value.2).value.2) :=
  rfl

theorem askAll_cons_events (query : Query) (rest : List Query) (source : σ) :
    (askAll (query :: rest) source).events =
      (query.ask source).events ++ (askAll rest (query.ask source).value.2).events := by
  have hbind : (askAll (query :: rest) source).events =
      (query.ask source).events ++ ((askAll rest (query.ask source).value.2).events ++ []) :=
    rfl
  rw [hbind, List.append_nil]

theorem length_ask_events (query : Query) (source : σ) :
    (query.ask source).events.length = query.footprint := by
  cases query <;> rfl

theorem length_askAll_events (queries : List Query) (source : σ) :
    (askAll queries source).events.length = footprints queries := by
  induction queries generalizing source with
  | nil => rfl
  | cons query queries ih =>
    rw [askAll_cons_events, List.length_append, length_ask_events, ih, footprints]

/-- No trace starts with a decision: what is decided was evaluated right before. -/
theorem askAll_events_ne_decided (queries : List Query) (source : σ) (chance : HitChance)
    (draw : UInt32) (hit : Bool) (rest : List Event) :
    (askAll queries source).events ≠ .decided chance draw hit :: rest := by
  intro h
  induction queries generalizing source with
  | nil => nomatch h
  | cons query queries ih =>
    rw [askAll_cons_events] at h
    cases query with
    | rolls evaluator engagement => exact ih source h
    | chance evaluator engagement | hit evaluator engagement => nomatch (List.cons.inj h).1

/-- The decisions that a trace tells are those among the answers, in order. -/
theorem decisions_askAll (queries : List Query) (source : σ) :
    Event.decisions (askAll queries source).events =
      (askAll queries source).value.1.filterMap Answer.hit? := by
  induction queries generalizing source with
  | nil => rfl
  | cons query queries ih =>
    rw [askAll_cons_events, askAll_cons_value]
    cases query with
    | rolls evaluator engagement => exact ih source
    | chance evaluator engagement =>
      have hrest := ih source
      have hhead := askAll_events_ne_decided queries source
      change Event.decisions (.evaluated _ _ _ :: (askAll queries source).events) =
        (askAll queries source).value.1.filterMap Answer.hit?
      rw [← hrest]
      cases hevents : (askAll queries source).events with
      | nil => rfl
      | cons event rest =>
        cases event with
        | evaluated key rolls chance => rfl
        | decided chance draw hit => exact absurd hevents (hhead chance draw hit rest)
        | configured reduction overrides => rfl
    | hit evaluator engagement =>
      exact congrArg (_ :: ·) (ih (RandomSource.draw 10000 source).2)

theorem filterMap_hit?_map_hit (hits : List Bool) :
    (hits.map Answer.hit).filterMap Answer.hit? = hits := by
  rw [List.filterMap_map]
  exact List.filterMap_some

theorem footprints_map_hit (calls : List (Evaluator × Engagement)) :
    footprints (calls.map fun call => hit call.1 call.2) = 2 * calls.length := by
  induction calls with
  | nil => rfl
  | cons call calls ih =>
    rw [List.map_cons, footprints, ih, List.length_cons, footprint]
    omega

theorem askAll_map_hit (calls : List (Evaluator × Engagement)) (source : σ) :
    (askAll (calls.map fun call => hit call.1 call.2) source).events =
        (Evaluator.rollAll calls source).events ∧
      (askAll (calls.map fun call => hit call.1 call.2) source).value.1 =
        (Evaluator.rollAll calls source).value.1.map Answer.hit := by
  induction calls generalizing source with
  | nil => exact ⟨rfl, rfl⟩
  | cons call calls ih =>
    have hrest := ih (RandomSource.draw 10000 source).2
    rw [List.map_cons, askAll_cons_events, askAll_cons_value]
    constructor
    · rw [Evaluator.rollAll_cons_events, ← hrest.1]
      rfl
    · exact congrArg (_ :: ·) hrest.2

end Query

/-- The trace alone explains every answer. Rolls leave no event. A chance leaves one, under the key
of the table entry that was evaluated, with the rolls and the chance they reduce to; a decision
leaves that event and then its own, with the same chance, the draw and whether that is below it. So
in a run of any questions each leaves its own number of events, and the trace tells the decisions; a
run of decisions leaves two for each. -/
theorem trace_explains_answers {σ : Type} [RandomSource σ] :
    (∀ (evaluator : Evaluator) (engagement : Engagement) (source : σ),
      let rolls := evaluator.rolls engagement
      let chance := evaluator.hitChance engagement
      let roll := evaluator.roll engagement source
      let draw := (RandomSource.draw 10000 source).1
      let label := engagement.attacker.kind.letter ++ "v" ++ engagement.defender.kind.letter ++
        "_" ++ engagement.attack.attackClass.label
      let evaluated : Json := .record [
        ("level", .string "TRACE"),
        ("message", .string "Evaluated accuracy"),
        ("resolver", .string label),
        ("attack_roll", .int rolls.attack.toInt),
        ("defence_roll", .int rolls.defence.toInt),
        ("hit_chance", .int chance.value.points)]
      let decided : Json := .record [
        ("level", .string "TRACE"),
        ("message", .string "hit roll"),
        ("hit_chance", .int chance.value.points),
        ("roll", .int draw.toNat),
        ("hit", .bool roll.value.1)]
      evaluator.selected engagement = (engagement.key, rolls) ∧ engagement.key.label = label ∧
        evaluator.tracedRolls engagement = { value := rolls, events := [] } ∧
        ((Query.rolls evaluator engagement).ask source).events = [] ∧
        chance.value = HitChance.ofRolls rolls.attack rolls.defence ∧
        roll.value.1 = decide (draw.toNat < chance.value.points) ∧
        chance.events = [.evaluated engagement.key rolls chance.value] ∧
        chance.events.map Event.toJson = [evaluated] ∧
        roll.events = chance.events ++ [.decided chance.value draw roll.value.1] ∧
        roll.events.map Event.toJson = [evaluated, decided]) ∧
    (∀ (queries : List Query) (source : σ),
      let run := Query.askAll queries source
      run.events.length = Query.footprints queries ∧
        Event.decisions run.events = run.value.1.filterMap Answer.hit?) ∧
    ∀ (calls : List (Evaluator × Engagement)) (source : σ),
      let run := Evaluator.rollAll calls source
      run.events.length = 2 * calls.length ∧
        run.events = (calls.zip (RandomSource.drawMany 10000 calls.length source).1).flatMap
          (fun (call, draw) => call.1.account call.2 draw) ∧
        Event.decisions run.events = run.value.1 := by
  refine ⟨?_, ?_, ?_⟩
  · intro evaluator engagement source rolls chance roll draw label evaluated decided
    have hlabel : engagement.key.label = label := engagement.label_key
    have hevaluated : (Event.evaluated engagement.key rolls chance.value).toJson = evaluated := by
      have hwritten : evaluated = .record [
          ("level", .string "TRACE"),
          ("message", .string "Evaluated accuracy"),
          ("resolver", .string engagement.key.label),
          ("attack_roll", .int rolls.attack.toInt),
          ("defence_roll", .int rolls.defence.toInt),
          ("hit_chance", .int chance.value.points)] := by
        rw [hlabel]
      rw [hwritten]
      rfl
    refine ⟨evaluator.selected_eq engagement, hlabel, rfl, rfl, rfl, rfl, rfl, ?_, rfl, ?_⟩
    · exact congrArg (fun event => [event]) hevaluated
    · exact congrArg (fun event => [event, decided]) hevaluated
  · intro queries source run
    exact ⟨Query.length_askAll_events queries source, Query.decisions_askAll queries source⟩
  · intro calls source run
    have hsame := Query.askAll_map_hit calls source
    refine ⟨?_, Evaluator.rollAll_events calls source, ?_⟩
    · rw [← hsame.1, Query.length_askAll_events, Query.footprints_map_hit]
    · rw [← hsame.1, Query.decisions_askAll, hsame.2, Query.filterMap_hit?_map_hit]

end CombatAccuracy
