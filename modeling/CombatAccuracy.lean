import CombatAccuracy.Codec.Attack
import CombatAccuracy.Codec.Config
import CombatAccuracy.Codec.Event
import CombatAccuracy.Codec.Snapshot
import CombatAccuracy.Json.Printer
import CombatAccuracy.NamedAttack
import CombatAccuracy.Proofs.Contest
import CombatAccuracy.Proofs.NpcAttacks
import CombatAccuracy.Proofs.Reduction
import CombatAccuracy.Proofs.Sources
import CombatAccuracy.Random.Seeded
import CombatAccuracy.Proofs.Frame
import CombatAccuracy.Proofs.MultiStyle
import CombatAccuracy.Proofs.Replay
import CombatAccuracy.Proofs.UniformDraws
import CombatAccuracy.Proofs.Trace
import CombatAccuracy.Proofs.ByName
import CombatAccuracy.Proofs.Numerals
import CombatAccuracy.Proofs.JsonText
import CombatAccuracy.Proofs.Records
import CombatAccuracy.Proofs.Layouts
import CombatAccuracy.Proofs.Thinning
import CombatAccuracy.Proofs.ConfigLoading
import CombatAccuracy.Proofs.SparseSnapshot
import CombatAccuracy.Proofs.RollOrder
import CombatAccuracy.Proofs.DefenceOrder
import CombatAccuracy.Proofs.SpellCasts
import CombatAccuracy.Proofs.Tags
import CombatAccuracy.Proofs.CheckedWords
import CombatAccuracy.Proofs.DecimalKeys
import CombatAccuracy.Proofs.SpellOverrides
import CombatAccuracy.Proofs.Doubles
import CombatAccuracy.Proofs.DoubleBits
import CombatAccuracy.Proofs.Quoted
import CombatAccuracy.Proofs.TaggedRecords
import CombatAccuracy.Proofs.AttackCodec
import CombatAccuracy.Proofs.Building
import CombatAccuracy.Proofs.NamedTables
import CombatAccuracy.Proofs.Positions
import CombatAccuracy.Proofs.BinaryFractions
