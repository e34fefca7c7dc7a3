/-
# Building fuzzers

A factory builds one fuzzer after another.  Where the options have a seed, the
`n`-th fuzzer, counted from 0 and with the failed ones, starts from the seed plus
`n` in 64 bits, so that no two of them draw alike.  Without a seed any start will
do.
-/

import PreconditionMining.Draws.Index
import PreconditionMining.Fuzzer.Basic

namespace PreconditionMining

/-- A builder of fuzzers: the constraints that they know, and how many were asked for. -/
structure FuzzerFactory where
  constraints : Constraints
  builds : Nat := 0

/-- A fuzzer that draws from a word stream. -/
def Fuzzer.ofOptions (g : Grammar) (formula : Option Formula) (options : SolverOptions)
    (constraints : Constraints) : Except SolverError (Fuzzer WordStream) :=
  Fuzzer.build g formula options constraints (WordStream.ofSeed (options.seed.getD 0))

namespace FuzzerFactory

/-- The seed of build number `n`. -/
def seedOf (n seed : Nat) : Nat := (seed + n) % Nat.pow 2 64

/-- Builds the next fuzzer. -/
def create (g : Grammar) (formula : Option Formula) (options : SolverOptions) (f : FuzzerFactory) :
    Except SolverError (Fuzzer WordStream) × FuzzerFactory :=
  (Fuzzer.ofOptions g formula { options with seed := options.seed.map (seedOf f.builds) }
    f.constraints, { f with builds := f.builds + 1 })

/-- Each build is counted, whether it succeeds or not. -/
@[simp] theorem builds_create (g : Grammar) (formula : Option Formula) (options : SolverOptions)
    (f : FuzzerFactory) : (f.create g formula options).2.builds = f.builds + 1 := rfl

end FuzzerFactory

end PreconditionMining
