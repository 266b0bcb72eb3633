import CombatAccuracy.Attack
import CombatAccuracy.Combatant
/-!
# Formula keys

A formula is picked by who attacks whom and by the class of the attack. The sixteen keys are listed
matchup by matchup, which is also their order.
-/
namespace CombatAccuracy

/-- Who attacks whom, by kind. -/
inductive Matchup where
  | playerVsPlayer
  | playerVsNpc
  | npcVsPlayer
  | npcVsNpc
  deriving DecidableEq, Repr, Ord

instance : Vocabulary Matchup where
  all := [.playerVsPlayer, .playerVsNpc, .npcVsPlayer, .npcVsNpc]
  word
    | .playerVsPlayer => "player_vs_player"
    | .playerVsNpc => "player_vs_npc"
    | .npcVsPlayer => "npc_vs_player"
    | .npcVsNpc => "npc_vs_npc"
  mem_all a := by cases a <;> simp
  word_injective a b := by cases a <;> cases b <;> simp

namespace Matchup

def of : CombatantKind → CombatantKind → Matchup
  | .player, .player => .playerVsPlayer
  | .player, .npc => .playerVsNpc
  | .npc, .player => .npcVsPlayer
  | .npc, .npc => .npcVsNpc

def attacker : Matchup → CombatantKind
  | .playerVsPlayer | .playerVsNpc => .player
  | .npcVsPlayer | .npcVsNpc => .npc

def defender : Matchup → CombatantKind
  | .playerVsPlayer | .npcVsPlayer => .player
  | .playerVsNpc | .npcVsNpc => .npc

@[simp] theorem attacker_of (a d : CombatantKind) : (of a d).attacker = a := by
  cases a <;> cases d <;> rfl

@[simp] theorem defender_of (a d : CombatantKind) : (of a d).defender = d := by
  cases a <;> cases d <;> rfl

@[simp] theorem of_attacker_defender (m : Matchup) : of m.attacker m.defender = m := by
  cases m <;> rfl

def label : Matchup → String
  | .playerVsPlayer => "pvp"
  | .playerVsNpc => "pvn"
  | .npcVsPlayer => "nvp"
  | .npcVsNpc => "nvn"

end Matchup

def AttackClass.label : AttackClass → String
  | .melee => "melee"
  | .ranged => "ranged"
  | .magic => "magic"
  | .multiStyle => "multi"

/-- What a formula is picked by. -/
structure FormulaKey where
  matchup : Matchup
  attackClass : AttackClass
  deriving DecidableEq, Repr, Ord

namespace FormulaKey

def all : List FormulaKey :=
  (Vocabulary.all : List Matchup).flatMap fun matchup =>
    (Vocabulary.all : List AttackClass).map fun attackClass => ⟨matchup, attackClass⟩

/-- The place of a key among all keys. -/
def index (key : FormulaKey) : Nat :=
  all.idxOf key

def label (key : FormulaKey) : String :=
  key.matchup.label ++ "_" ++ key.attackClass.label

/-- Keys in order, repeats kept. -/
def sort (keys : List FormulaKey) : List FormulaKey :=
  keys.mergeSort fun a b => (compare a b).isLE

end FormulaKey
end CombatAccuracy
