/-
# Keys from seeds

A seed is a 64-bit number.  It starts a linear congruential sequence, and each of
eight steps of the sequence gives one word of the key: the state is folded to 32
bits, which are turned by as many places as the five highest bits of the state
say.
-/

import PreconditionMining.Draws.Cipher

namespace PreconditionMining
namespace Seed

/-- One step of the sequence. -/
def step (state : UInt64) : UInt64 := state * 6364136223846793005 + 11634580027462260723

/-- The word that a state gives. -/
def word (state : UInt64) : UInt32 :=
  let folded := (((state >>> 18) ^^^ state) >>> 27).toUInt32
  let distance := (state >>> 59).toUInt32
  (folded >>> distance) ||| (folded <<< ((32 - distance) % 32))

/-- The states after one, two, … steps. -/
def states (seed : UInt64) : Nat → UInt64
  | 0 => step seed
  | n + 1 => step (states seed n)

/-- The key of a seed. -/
def key (seed : Nat) : Vector UInt32 8 := Vector.ofFn fun i => word (states (UInt64.ofNat seed) i)

end Seed

/-- The word stream of a seed. -/
def WordStream.ofSeed (seed : Nat) : WordStream := WordStream.ofKey (Seed.key seed)

end PreconditionMining
