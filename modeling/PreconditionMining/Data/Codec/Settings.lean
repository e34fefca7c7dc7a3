/-
# Settings as data

Options and settings as free-form data, and back.  Each field of a setting may
be left out of the data and then has a default, which its reader names for
itself.  Unset options are written as nothing.
-/

import PreconditionMining.Data.Decode
import PreconditionMining.Settings.Harness

namespace PreconditionMining

namespace Value

/-- A number, or nothing. -/
def ofNat? : Option Nat → Value
  | none => null
  | some n => integer n

end Value

namespace Decode

/-- Free-form entries, as they are. -/
def extra : Value → Decoded (Dictionary Value) := dictionary .ok

end Decode

namespace SolverOptions

/-- The names of the fields, in the order of their declaration. -/
def fieldNames : List String :=
  ["timeout_ms", "max_depth", "max_attempts", "distinct", "seed", "extra"]

/-- The options as data. -/
def encode (o : SolverOptions) : Value :=
  .record [("distinct", .bool o.distinct), ("extra", .ofDictionary o.extra),
    ("max_attempts", .integer o.maxAttempts), ("max_depth", .integer o.maxDepth),
    ("seed", .ofNat? o.seed), ("timeout_ms", .ofNat? o.timeoutMs)]

/-- Reads options.  Each free-form entry is what `keep` makes of it. -/
def decodeWith (keep : Value → Decoded Value) : Value → Decoded SolverOptions :=
  Decode.fieldwise fieldNames fun fields => do
    let distinct ← Decode.fieldOr fields "distinct" true Decode.bool
    let extra ← Decode.fieldOr fields "extra" .empty (Decode.dictionary keep)
    let maxAttempts ← Decode.fieldOr fields "max_attempts" 1000 Decode.word64
    let maxDepth ← Decode.fieldOr fields "max_depth" 16 Decode.word64
    let seed ← Decode.fieldOr fields "seed" none (Decode.optional Decode.word64)
    let timeoutMs ← Decode.fieldOr fields "timeout_ms" none (Decode.optional Decode.word64)
    return { timeoutMs, maxDepth, maxAttempts, distinct, seed, extra }

/-- Reads options. -/
def decode : Value → Decoded SolverOptions := decodeWith .ok

end SolverOptions

namespace SolverOverrides

/-- The overrides as data. -/
def encode (o : SolverOverrides) : Value :=
  .record [("distinct", o.distinct.elim .null .bool), ("extra", .ofDictionary o.extra),
    ("max_attempts", .ofNat? o.maxAttempts), ("max_depth", .ofNat? o.maxDepth),
    ("seed", .ofNat? o.seed), ("timeout_ms", .ofNat? o.timeoutMs)]

/-- Reads overrides. -/
def decode : Value → Decoded SolverOverrides :=
  Decode.fieldwise SolverOptions.fieldNames fun fields => do
    let distinct ← Decode.fieldOr fields "distinct" none (Decode.optional Decode.bool)
    let extra ← Decode.fieldOr fields "extra" .empty Decode.extra
    let maxAttempts ← Decode.fieldOr fields "max_attempts" none (Decode.optional Decode.word64)
    let maxDepth ← Decode.fieldOr fields "max_depth" none (Decode.optional Decode.word64)
    let seed ← Decode.fieldOr fields "seed" none (Decode.optional Decode.word64)
    let timeoutMs ← Decode.fieldOr fields "timeout_ms" none (Decode.optional Decode.word64)
    return { timeoutMs, maxDepth, maxAttempts, distinct, seed, extra }

end SolverOverrides

namespace LearnerOptions

/-- The options as data. -/
def encode (o : LearnerOptions) : Value :=
  .record [("activated_patterns",
      o.activatedPatterns.elim .null fun s => .list (s.names.map .text)),
    ("extra", .ofDictionary o.extra)]

/-- Reads options. -/
def decode : Value → Decoded LearnerOptions :=
  Decode.fieldwise ["activated_patterns", "extra"] fun fields => do
    let patterns ← Decode.fieldOr fields "activated_patterns" none
      (Decode.optional fun v => (Decode.list Decode.text v).map .ofNames)
    let extra ← Decode.fieldOr fields "extra" .empty Decode.extra
    return { activatedPatterns := patterns, extra }

end LearnerOptions

namespace SuiteSettings

/-- The settings as data. -/
def encode (s : SuiteSettings) : Value :=
  .record [("max_learner_retries", .integer s.maxLearnerRetries),
    ("num_tries", .integer s.numTries), ("solver", s.solver.encode),
    ("target_num_samples", .integer s.targetNumSamples), ("verbose", .bool s.verbose)]

/-- The names of the fields, in the order of their declaration. -/
def fieldNames : List String :=
  ["target_num_samples", "num_tries", "max_learner_retries", "verbose", "solver"]

/-- Reads settings.  Each free-form entry is what `keep` makes of it. -/
def decodeWith (keep : Value → Decoded Value) : Value → Decoded SuiteSettings :=
  Decode.fieldwise fieldNames fun fields => do
    let maxLearnerRetries ← Decode.fieldOr fields "max_learner_retries" 5 Decode.word32
    let numTries ← Decode.fieldOr fields "num_tries" 100 Decode.word64
    let solver ← Decode.fieldOr fields "solver" {} (SolverOptions.decodeWith keep)
    let targetNumSamples ← Decode.fieldOr fields "target_num_samples" 200 Decode.word64
    let verbose ← Decode.fieldOr fields "verbose" false Decode.bool
    return { targetNumSamples, numTries, maxLearnerRetries, verbose, solver }

/-- Reads settings. -/
def decode : Value → Decoded SuiteSettings := decodeWith .ok

end SuiteSettings

namespace EvaluationSettings

/-- The settings as data. -/
def encode (s : EvaluationSettings) : Value := .record [("sample_count", .integer s.sampleCount)]

/-- Reads settings. -/
def decode : Value → Decoded EvaluationSettings :=
  Decode.fieldwise ["sample_count"] fun fields => do
    let sampleCount ← Decode.fieldOr fields "sample_count" 100 Decode.word64
    return { sampleCount }

end EvaluationSettings

/-- The formats by their names. -/
def LogFormat.names : List (String × LogFormat) := [("json", .json), ("pretty", .pretty)]

/-- The name of a format. -/
def LogFormat.name : LogFormat → String
  | .json => "json"
  | .pretty => "pretty"

/-- The policies by their names. -/
def RotationPolicy.names : List (String × RotationPolicy) :=
  [("daily", .daily), ("hourly", .hourly), ("never", .never)]

/-- The name of a policy. -/
def RotationPolicy.name : RotationPolicy → String
  | .daily => "daily"
  | .hourly => "hourly"
  | .never => "never"

namespace LogSettings

/-- The settings as data. -/
def encode (s : LogSettings) : Value :=
  .record [("enable_stdout", .bool s.enableStdout), ("format", .text s.format.name),
    ("level", .text s.level), ("log_dir", s.logDir.elim .null .text),
    ("rotation", .text s.rotation.name)]

/-- The names of the fields, in the order of their declaration. -/
def fieldNames : List String := ["level", "format", "log_dir", "enable_stdout", "rotation"]

/-- Reads settings. -/
def decode : Value → Decoded LogSettings :=
  Decode.fieldwise fieldNames fun fields => do
    let enableStdout ← Decode.fieldOr fields "enable_stdout" true Decode.bool
    let format ← Decode.fieldOr fields "format" .pretty (Decode.oneOf LogFormat.names)
    let level ← Decode.fieldOr fields "level" "info" Decode.text
    let logDir ← Decode.fieldOr fields "log_dir" none (Decode.optional Decode.text)
    let rotation ← Decode.fieldOr fields "rotation" .daily (Decode.oneOf RotationPolicy.names)
    return { level, format, logDir, enableStdout, rotation }

end LogSettings

namespace HarnessConfig

/-- A configuration as data. -/
def encode (c : HarnessConfig) : Value :=
  .record [("evaluation", c.evaluation.encode), ("logging", c.logging.encode),
    ("suite", c.suite.encode)]

/-- The names of the fields, in the order of their declaration. -/
def fieldNames : List String := ["suite", "evaluation", "logging"]

/-- Reads a configuration.  Each free-form entry is what `keep` makes of it. -/
def decodeWith (keep : Value → Decoded Value) : Value → Decoded HarnessConfig :=
  Decode.fieldwise fieldNames fun fields => do
    let evaluation ← Decode.fieldOr fields "evaluation" {} EvaluationSettings.decode
    let logging ← Decode.fieldOr fields "logging" {} LogSettings.decode
    let suite ← Decode.fieldOr fields "suite" {} (SuiteSettings.decodeWith keep)
    return { suite, evaluation, logging }

/-- Reads a configuration. -/
def decode : Value → Decoded HarnessConfig := decodeWith .ok

end HarnessConfig

end PreconditionMining
