/-
# Outlines of options and settings

How options and settings, and the free-form entries in them, are shown to those
who look inside.
-/

import PreconditionMining.Decimal.Shortest
import PreconditionMining.Settings.Harness
import PreconditionMining.Text.Outline

namespace PreconditionMining

namespace Value

/-- The text of a floating-point number. -/
def numberText (x : Float) : String := (Shortest.ofFloat? Shortest.documentStyle x).getD ""

mutual

/-- The outline of a datum. -/
def outline : Value → Outline
  | null => .word "Null"
  | bool b => .form "Bool" (.bool b)
  | integer n => .form "Number" (.word (toString n))
  | number x => .form "Number" (.word (numberText x))
  | character c => .form "String" (.text c.toString)
  | text s => .form "String" (.text s)
  | list items => .word ("Array " ++ (Outline.list (outlineAll items)).write)
  | record fields => .word ("Object " ++ (Outline.map (outlineFields fields)).write)

/-- The outlines of data. -/
def outlineAll : List Value → List Outline
  | [] => []
  | v :: vs => outline v :: outlineAll vs

/-- The outlines of named data. -/
def outlineFields : List (String × Value) → List (String × Outline)
  | [] => []
  | (name, v) :: rest => (name, outline v) :: outlineFields rest

end

end Value

/-- The outline of free-form entries. -/
def Dictionary.outline (d : Dictionary Value) : Outline := .map (Value.outlineFields d.entries)

/-- The outline of solver options. -/
def SolverOptions.outline (o : SolverOptions) : Outline :=
  .record "SolverOptions" true [("timeout_ms", .optional .natural o.timeoutMs),
    ("max_depth", .natural o.maxDepth), ("max_attempts", .natural o.maxAttempts),
    ("distinct", .bool o.distinct), ("seed", .optional .natural o.seed),
    ("extra", o.extra.outline)]

/-- The outline of solver overrides. -/
def SolverOverrides.outline (o : SolverOverrides) : Outline :=
  .record "SolverOverrides" true [("timeout_ms", .optional .natural o.timeoutMs),
    ("max_depth", .optional .natural o.maxDepth),
    ("max_attempts", .optional .natural o.maxAttempts),
    ("distinct", .optional .bool o.distinct), ("seed", .optional .natural o.seed),
    ("extra", o.extra.outline)]

/-- The outline of learner options. -/
def LearnerOptions.outline (o : LearnerOptions) : Outline :=
  .record "LearnerOptions" true
    [("activated_patterns", .optional (fun s => .set (s.names.map .text)) o.activatedPatterns),
      ("extra", o.extra.outline)]

/-- The outline of the options that a test is registered with. -/
def ObserveOptions.outline (o : ObserveOptions) : Outline :=
  .record "ObserveOptions" true [("learner", .optional LearnerOptions.outline o.learner),
    ("solver", .optional SolverOverrides.outline o.solver)]

/-- The outline of suite settings. -/
def SuiteSettings.outline (s : SuiteSettings) : Outline :=
  .record "SuiteSettings" true [("target_num_samples", .natural s.targetNumSamples),
    ("num_tries", .natural s.numTries), ("max_learner_retries", .natural s.maxLearnerRetries),
    ("verbose", .bool s.verbose), ("solver", s.solver.outline)]

end PreconditionMining
