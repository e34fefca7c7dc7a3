/-
# Settings of the harness

The settings of a suite, of an evaluation and of logging, each with its default,
and the three together as they are read from a configuration.
-/

import PreconditionMining.Settings.Options

namespace PreconditionMining

/-- How a suite discovers and learns. -/
structure SuiteSettings where
  /-- How many positive samples discovery aims at. -/
  targetNumSamples : Nat := 200
  /-- How many samples exploration may draw, and how many sweeps mutation may make. -/
  numTries : Nat := 100
  /-- How many attempts a learner has for one test. -/
  maxLearnerRetries : Nat := 5
  /-- Whether results are reported to people as they come. -/
  verbose : Bool := false
  /-- The options of the solvers. -/
  solver : SolverOptions := {}

/-- How many samples of each kind exploration aims at: a fifth of the target. -/
def SuiteSettings.initialTarget (s : SuiteSettings) : Nat := s.targetNumSamples / 5

/-- How preconditions are measured. -/
structure EvaluationSettings where
  /-- How many samples each stream of a measurement has. -/
  sampleCount : Nat := 100
deriving DecidableEq

/-- How log lines are written to the standard output. -/
inductive LogFormat
  | json
  | pretty
deriving DecidableEq

/-- How often a new log file is begun. -/
inductive RotationPolicy
  | daily
  | hourly
  | never
deriving DecidableEq

/-- What is logged, and where to. -/
structure LogSettings where
  level : String := "info"
  format : LogFormat := .pretty
  logDir : Option String := none
  enableStdout : Bool := true
  rotation : RotationPolicy := .daily
deriving DecidableEq

/-- The whole configuration. -/
structure HarnessConfig where
  suite : SuiteSettings := {}
  evaluation : EvaluationSettings := {}
  logging : LogSettings := {}

end PreconditionMining
