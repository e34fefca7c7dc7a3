/-
# Choices from a word stream

A word `v` below `2 ^ 32` chooses one of `m` things by the upper half of the
product `v * m`.  The lower half tells whether each of the things has the same
number of words to its name: it must not lie above the largest multiple
`m * 2 ^ k` that fits into a word, less one; otherwise the next word is drawn.

A word is refused less than half of the time.  `WordStream.retries` is a bound
on the words drawn for one choice that no run ever meets; the last word decides
whatever its lower half is, so the choice is among the things in any case.
-/

import PreconditionMining.Draws.Chooser
import PreconditionMining.Draws.Seed

namespace PreconditionMining
namespace WordStream

/-- The largest lower half that is accepted for a choice among `m` things. -/
def zone (m : Nat) : Nat := m * Nat.pow 2 (31 - m.log2) - 1

/-- The thing that a word chooses. -/
def chosen (n : Nat) (v : UInt32) : Fin (n + 1) :=
  ⟨v.toNat * (n + 1) / Nat.pow 2 32, by
    have := v.toNat_lt
    exact Nat.div_lt_of_lt_mul (Nat.mul_lt_mul_of_pos_right this (Nat.succ_pos n))⟩

/-- Draws words until one is accepted, or for a number of times. -/
def pickWithin (n : Nat) : Nat → WordStream → Fin (n + 1) × WordStream
  | 0, s =>
    let (v, s) := s.next
    (chosen n v, s)
  | retries + 1, s =>
    let (v, s) := s.next
    if v.toNat * (n + 1) % Nat.pow 2 32 ≤ zone (n + 1) then (chosen n v, s)
    else pickWithin n retries s

/-- How many words may be refused for one choice. -/
def retries : Nat := 256

/-- The choices of a word stream. -/
def chooser : Chooser WordStream where
  pick n s := pickWithin n retries s

end WordStream
end PreconditionMining
