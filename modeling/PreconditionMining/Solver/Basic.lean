/-
# Solvers

A solver gives samples: fresh ones, and mutants of samples that it is shown.  It
is a machine over a state of its own, so that each call may depend on all calls
before it.
-/

import PreconditionMining.Logging.Event

namespace PreconditionMining

/-- What one call of a solver comes to: its answer, its next state, and what it tells. -/
structure Reply (σ : Type) where
  answer : Except SolverError Tree
  state : σ
  events : List Event := []

/-- A source of samples over states of type `σ`. -/
structure Solver (σ : Type) where
  /-- Gives a sample. -/
  solve : σ → Reply σ
  /-- Gives a mutant of a sample. -/
  mutate : Tree → σ → Reply σ

/-- The answers of at most a number of calls, each of them shown the sample of the call before.
A refusal is the last answer. -/
def Reply.chain {σ : Type} (call : Tree → σ → Reply σ) :
    Nat → Tree → σ → List (Except SolverError Tree) × σ
  | 0, _, s => ([], s)
  | n + 1, sample, s =>
    let r := call sample s
    match r.answer with
    | .error e => ([.error e], r.state)
    | .ok next =>
      let (answers, s) := chain call n next r.state
      (.ok next :: answers, s)

end PreconditionMining
