/-
# The word stream of a key

The words of the stream come from a block cipher in counter mode.  A block is a
state of sixteen words: four constants, the eight words of the key, a counter of
two words, and two zero words.  Six times the four columns and then the four
diagonals of the state are mixed; the block is the sum of the result and the
state that it began with.  Block after block is written out, word by word.
-/

namespace PreconditionMining

/-- The sixteen words of a block. -/
abbrev Block := Vector UInt32 16

namespace Block

/-- A word with its bits turned to the left; the distance lies between 1 and 31. -/
def turnLeft (x : UInt32) (distance : UInt32) : UInt32 :=
  (x <<< distance) ||| (x >>> (32 - distance))

/-- Adds the second of three words to the first, and turns what the sum changes in the third. -/
def blend (s : Block) (a b d : Fin 16) (distance : UInt32) : Block :=
  let sum := s[a] + s[b]
  let turned := turnLeft (s[d] ^^^ sum) distance
  (s.set a sum).set d turned

/-- Mixes four words of a block. -/
def mixFour (s : Block) (a b c d : Fin 16) : Block :=
  (((s.blend a b d 16).blend c d b 12).blend a b d 8).blend c d b 7

/-- Mixes the columns and then the diagonals. -/
def mixOnce (s : Block) : Block :=
  let s := s.mixFour 0 4 8 12
  let s := s.mixFour 1 5 9 13
  let s := s.mixFour 2 6 10 14
  let s := s.mixFour 3 7 11 15
  let s := s.mixFour 0 5 10 15
  let s := s.mixFour 1 6 11 12
  let s := s.mixFour 2 7 8 13
  s.mixFour 3 4 9 14

/-- The state that block number `n` of a key begins with. -/
def start (key : Vector UInt32 8) (n : Nat) : Block :=
  #v[0x61707865, 0x3320646e, 0x79622d32, 0x6b206574,
    key[0], key[1], key[2], key[3], key[4], key[5], key[6], key[7],
    UInt32.ofNat n, UInt32.ofNat (n / Nat.pow 2 32), 0, 0]

/-- Block number `n` of a key. -/
def ofKey (key : Vector UInt32 8) (n : Nat) : Block :=
  let s := start key n
  Vector.zipWith (· + ·) s.mixOnce.mixOnce.mixOnce.mixOnce.mixOnce.mixOnce s

end Block

/-- A place in the word stream of a key: the words left of the current block, and the number
of the next block. -/
structure WordStream where
  key : Vector UInt32 8
  nextBlock : Nat
  pending : List UInt32

namespace WordStream

/-- The stream of a key from its beginning. -/
def ofKey (key : Vector UInt32 8) : WordStream := ⟨key, 0, []⟩

/-- The next word. -/
def next (s : WordStream) : UInt32 × WordStream :=
  match s.pending with
  | w :: ws => (w, { s with pending := ws })
  | [] =>
    let block := Block.ofKey s.key s.nextBlock
    (block[0], { s with nextBlock := s.nextBlock + 1, pending := block.toList.tail })

end WordStream

end PreconditionMining
