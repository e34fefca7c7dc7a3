/-
# Valid configurations

A configuration is valid when no setting makes a run idle or refuse its work.
The checks are made in a fixed order and the first that fails is reported.  The
level must be written in lower case here, although a log accepts it in any case.
-/

import PreconditionMining.Logging.Level
import PreconditionMining.Settings.Harness

namespace PreconditionMining

/-- Why a configuration is not valid. -/
inductive ConfigError
  | invalidTargetSamples (n : Nat)
  | invalidNumTries (n : Nat)
  | invalidLearnerRetries (n : Nat)
  | invalidSampleCount (n : Nat)
  | invalidMaxAttempts (n : Nat)
  | invalidLogLevel (level : String)
  | validationFailed (reason : String)
deriving DecidableEq

/-- The name of a failure. -/
def ConfigError.name : ConfigError → String
  | .invalidTargetSamples _ => "InvalidTargetSamples"
  | .invalidNumTries _ => "InvalidNumTries"
  | .invalidLearnerRetries _ => "InvalidLearnerRetries"
  | .invalidSampleCount _ => "InvalidSampleCount"
  | .invalidMaxAttempts _ => "InvalidMaxAttempts"
  | .invalidLogLevel _ => "InvalidLogLevel"
  | .validationFailed _ => "ValidationFailed"

/-- The text of a failure. -/
def ConfigError.message : ConfigError → String
  | .invalidTargetSamples n =>
    "Invalid target_num_samples: " ++ toString n ++ ". Must be at least 1"
  | .invalidNumTries n => "Invalid num_tries: " ++ toString n ++ ". Must be at least 1"
  | .invalidLearnerRetries n => "Invalid max_learner_retries: " ++ toString n ++ ". Cannot be 0"
  | .invalidSampleCount n => "Invalid sample_count: " ++ toString n ++ ". Must be at least 1"
  | .invalidMaxAttempts n =>
    "Invalid solver max_attempts: " ++ toString n ++ ". Must be at least 1"
  | .invalidLogLevel l =>
    "Invalid log level: " ++ l ++ ". Must be one of: trace, debug, info, warn, error"
  | .validationFailed reason => "Configuration validation failed: " ++ reason

namespace HarnessConfig

/-- The first thing that makes a configuration invalid. -/
def firstFault (c : HarnessConfig) : Option ConfigError :=
  if c.suite.targetNumSamples = 0 then some (.invalidTargetSamples c.suite.targetNumSamples)
  else if c.suite.numTries = 0 then some (.invalidNumTries c.suite.numTries)
  else if c.suite.maxLearnerRetries = 0 then
    some (.invalidLearnerRetries c.suite.maxLearnerRetries)
  else if c.suite.solver.maxAttempts = 0 then
    some (.invalidMaxAttempts c.suite.solver.maxAttempts)
  else if c.evaluation.sampleCount = 0 then some (.invalidSampleCount c.evaluation.sampleCount)
  else if (Level.ofName? c.logging.level).isNone then some (.invalidLogLevel c.logging.level)
  else if c.logging.logDir = some "" then
    some (.validationFailed "logging.log_dir cannot be empty")
  else none

/-- Accepts a valid configuration. -/
def validate (c : HarnessConfig) : Except ConfigError Unit :=
  match c.firstFault with
  | some e => .error e
  | none => .ok ()

end HarnessConfig

end PreconditionMining
