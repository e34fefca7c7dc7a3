/-
# Why a discovery ends

A discovery ends because it has enough positive samples or has made all its
sweeps, because it has nothing to mutate, or because the solver stops it.
-/

import PreconditionMining.Solver.Error
import PreconditionMining.Text.Quoted

namespace PreconditionMining

/-- Why a discovery ends. -/
inductive Stop
  /-- There are as many positive samples as were aimed at. -/
  | targetReached
  /-- All sweeps are made. -/
  | triesExhausted
  /-- Exploration found no positive sample to mutate. -/
  | noPositiveSeeds
  | solverExhausted
  | solverTimeout
  /-- The solver failed; what it says. -/
  | solverFailed (text : String)
deriving DecidableEq

namespace Stop

/-- The end that a solver's refusal brings about. -/
def ofSolver : SolverError → Stop
  | .exhausted => solverExhausted
  | .timeout _ => solverTimeout
  | e => solverFailed e.message

/-- The name of an end, without what the solver said. -/
def name : Stop → String
  | targetReached => "TargetReached"
  | triesExhausted => "TriesExhausted"
  | noPositiveSeeds => "NoPositiveSeeds"
  | solverExhausted => "SolverExhausted"
  | solverTimeout => "SolverTimeout"
  | solverFailed _ => "SolverFailed"

/-- The text of an end. -/
def text : Stop → String
  | solverFailed t => "SolverFailed(" ++ quoted t ++ ")"
  | s => s.name

end Stop

end PreconditionMining
