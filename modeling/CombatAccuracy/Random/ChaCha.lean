/-!
# The ChaCha8 key stream

ChaCha scrambles a block of sixteen words, made of four constants, a key of eight words, a 64-bit
counter and two zero words, and adds the block to the outcome. Blocks with counters 0, 1, 2, … are
the key stream; with 8 rounds, two at a time, this is ChaCha8.
-/
namespace CombatAccuracy.ChaCha

abbrev Block := Vector UInt32 16

/-- The word with its bits moved up by `count` places, those that leave coming in below. -/
def rotate (count : Nat) (word : UInt32) : UInt32 :=
  ⟨word.toBitVec.rotateLeft count⟩

/-- Four words of a block, mixed with one another. -/
def quarterRound (a b c d : Fin 16) (block : Block) : Block :=
  let wa := block[a] + block[b]
  let wd := rotate 16 (block[d] ^^^ wa)
  let wc := block[c] + wd
  let wb := rotate 12 (block[b] ^^^ wc)
  let wa := wa + wb
  let wd := rotate 8 (wd ^^^ wa)
  let wc := wc + wd
  let wb := rotate 7 (wb ^^^ wc)
  (((block.set a wa).set b wb).set c wc).set d wd

/-- A round on the columns of the block as a 4 by 4 square, then one on its diagonals. -/
def doubleRound (block : Block) : Block :=
  block
    |> quarterRound 0 4 8 12
    |> quarterRound 1 5 9 13
    |> quarterRound 2 6 10 14
    |> quarterRound 3 7 11 15
    |> quarterRound 0 5 10 15
    |> quarterRound 1 6 11 12
    |> quarterRound 2 7 8 13
    |> quarterRound 3 4 9 14

def doubleRounds : Nat → Block → Block
  | 0, block => block
  | count + 1, block => doubleRounds count (doubleRound block)

def initialBlock (key : Vector UInt32 8) (counter : UInt64) : Block :=
  #v[0x61707865, 0x3320646e, 0x79622d32, 0x6b206574,
    key[0], key[1], key[2], key[3], key[4], key[5], key[6], key[7],
    counter.toUInt32, (counter >>> 32).toUInt32, 0, 0]

def keyBlock (key : Vector UInt32 8) (counter : UInt64) : Block :=
  let initial := initialBlock key counter
  (doubleRounds 4 initial).zipWith (· + ·) initial

/-- A place in the key stream of a key: the words of a block still to come, and the next block. -/
structure Stream where
  key : Vector UInt32 8
  pending : List UInt32 := []
  counter : UInt64 := 0
  deriving DecidableEq

namespace Stream

def next (stream : Stream) : UInt32 × Stream :=
  match stream.pending with
  | word :: pending => (word, { stream with pending })
  | [] =>
    let block := (keyBlock stream.key stream.counter).toList
    (block.headD 0, { stream with pending := block.tail, counter := stream.counter + 1 })

/-- The number of words after which every key stream starts again. -/
def period : Nat := 16 * UInt64.size

end Stream
end CombatAccuracy.ChaCha
