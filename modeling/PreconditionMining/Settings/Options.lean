/-
# Options of solvers and learners

Solver options are complete; a test may override any of them.  `apply` takes
what an override sets and keeps the rest; of the free-form entries it keeps
those whose key the override does not have (`SolverOptions.extra_apply`).
-/

import PreconditionMining.Data.Value

namespace PreconditionMining

/-- How a solver searches. -/
structure SolverOptions where
  /-- The time budget of one call, in milliseconds. -/
  timeoutMs : Option Nat := none
  /-- The depth from which on only shallowest expansions are chosen. -/
  maxDepth : Nat := 16
  /-- How many samples one call may draw. -/
  maxAttempts : Nat := 1000
  /-- Whether a sample already returned is drawn again. -/
  distinct : Bool := true
  /-- The start of the random draws. -/
  seed : Option Nat := none
  /-- Entries for solvers that know them. -/
  extra : Dictionary Value := .empty

/-- What a test changes in the options of its solver. -/
structure SolverOverrides where
  timeoutMs : Option Nat := none
  maxDepth : Option Nat := none
  maxAttempts : Option Nat := none
  distinct : Option Bool := none
  seed : Option Nat := none
  extra : Dictionary Value := .empty

/-- The options with what an override sets. -/
def SolverOptions.apply (options : SolverOptions) (given : SolverOverrides) : SolverOptions where
  timeoutMs := given.timeoutMs.or options.timeoutMs
  maxDepth := given.maxDepth.getD options.maxDepth
  maxAttempts := given.maxAttempts.getD options.maxAttempts
  distinct := given.distinct.getD options.distinct
  seed := given.seed.or options.seed
  extra := options.extra.union given.extra

/-- **Of a free-form entry the override's value counts where it has one.** -/
theorem SolverOptions.extra_apply (o : SolverOptions) (v : SolverOverrides) (key : String) :
    (o.apply v).extra.find? key = (v.extra.find? key).or (o.extra.find? key) :=
  Dictionary.find?_union o.extra v.extra key

/-- What a learner is told. -/
structure LearnerOptions where
  /-- The patterns that the learner may use; all of them where none are named. -/
  activatedPatterns : Option NameSet := none
  /-- Entries for learners that know them. -/
  extra : Dictionary Value := .empty

/-- What a test is registered with. -/
structure ObserveOptions where
  learner : Option LearnerOptions := none
  solver : Option SolverOverrides := none

end PreconditionMining
