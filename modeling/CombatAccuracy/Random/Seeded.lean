import CombatAccuracy.Random.ChaCha
import CombatAccuracy.Random.Source
/-!
# The seeded source

A 64-bit seed is stretched to a ChaCha8 key by a small generator (`expandSeed`). Each draw takes
words from the key stream until one is accepted: a word `v` stands for the answer `v * n / 2 ^ 32`,
and the accepted words are those at the start of an answer's share, equally many for every answer.
-/
namespace CombatAccuracy

/-- A source of numbers that a seed fixes. -/
structure Seeded where
  stream : ChaCha.Stream
  deriving DecidableEq

namespace Seeded

/-- One step of the generator that stretches a seed. -/
def advance (state : UInt64) : UInt64 :=
  state * 6364136223846793005 + 11634580027462260723

/-- The word a state of that generator gives: its upper bits folded, then rotated down by its top
five. -/
def output (state : UInt64) : UInt32 :=
  ⟨((((state >>> 18) ^^^ state) >>> 27).toUInt32).toBitVec.rotateRight (state >>> 59).toNat⟩

/-- The key words that follow a state. -/
def expandSeed (seed : UInt64) : Vector UInt32 8 :=
  .ofFn fun i => output (Nat.repeat advance (i.val + 1) seed)

def ofSeed (seed : UInt64) : Seeded :=
  ⟨{ key := expandSeed seed }⟩

/-- The number of zero bits before the first one in a 32-bit word. -/
def leadingZeros (word : UInt32) : Nat :=
  if word = 0 then 32 else 31 - word.toNat.log2

/-- The answer below `bound` that a word stands for, if it is accepted: the lower half of the
product must not pass the bound moved up to the top of a word. -/
def accept? (bound word : UInt32) : Option UInt32 :=
  let product := word.toUInt64 * bound.toUInt64
  let zone := (bound <<< (leadingZeros bound).toUInt32) - 1
  if product.toUInt32 ≤ zone then some (product >>> 32).toUInt32 else none

/-- The answer of the first accepted word among the next `words`, and the stream after that word. -/
def firstAccepted (bound : UInt32) : Nat → ChaCha.Stream → UInt32 × ChaCha.Stream
  | 0, stream => (0, stream)
  | words + 1, stream =>
    let (word, stream) := stream.next
    match accept? bound word with
    | some answer => (answer, stream)
    | none => firstAccepted bound words stream

/-- Below 0 there is only 0, without a draw. A whole period of the key stream is searched, for what
it does not hold never comes. -/
instance : RandomSource Seeded where
  draw bound source :=
    if bound = 0 then (0, source)
    else
      let (answer, stream) := firstAccepted bound ChaCha.Stream.period source.stream
      (answer, ⟨stream⟩)

end Seeded
end CombatAccuracy
