/-
# Suites

A suite holds registered tests and drives learning and measuring over them.
Learning replaces the results of the learning before, test by test: what was
learned before a failure stays.

A misuse of conditions ends a task with a failure.  Settings under which a task
would do nothing are refused before the task begins, and nothing changes.  Only
measuring may break off without a failure, where there is no room for so many
samples.
-/

import PreconditionMining.Report.Dump
import PreconditionMining.Report.Evaluation

namespace PreconditionMining

/-- Why a suite does not complete a task. -/
inductive HarnessError
  | condition (cause : ConditionError)
  | invalidSettings (reason : String)
deriving DecidableEq

/-- The name of a cause; a misuse of conditions has that of the misuse behind a point. -/
def HarnessError.name : HarnessError → String
  | .condition cause => "Condition." ++ cause.name
  | .invalidSettings _ => "InvalidSettings"

/-- The text of a cause. -/
def HarnessError.message : HarnessError → String
  | .condition cause => "Condition error: " ++ cause.message
  | .invalidSettings reason => "Invalid settings: " ++ reason

/-- A suite. -/
structure Suite where
  context : Context
  evaluation : EvaluationSettings := {}
  results : List TestResult := []

namespace Suite

variable {φ σ κ : Type}

/-- A suite with the settings of a configuration. -/
def ofConfig (config : HarnessConfig) (grammar : Grammar) (formula : Option Formula)
    (adapter : Option (Tree → String)) : Suite where
  context := { grammar, formula, adapter, settings := config.suite }
  evaluation := config.evaluation

/-- The registered tests. -/
def tests (s : Suite) : List ObservedTest := s.context.register

/-- The tests that watch one body under several conditions, numbered from `first` on. -/
def testsFor (first : Nat) (name : String) (options : ObserveOptions) (body : String → Script) :
    List Condition → List ObservedTest
  | [] => []
  | c :: cs =>
    ⟨first, name, c, body, options⟩ :: testsFor (first + 1) name options body cs

/-- Registers a body under each of several conditions. -/
def observe (s : Suite) (name : String) (conditions : List Condition) (options : ObserveOptions)
    (body : String → Script) : Suite :=
  let register := s.context.register
  { s with
    context.register := register ++ testsFor register.length name options body conditions }

/-- Replaces the settings. -/
def withSettings (s : Suite) (settings : SuiteSettings) : Suite :=
  { s with context.settings := settings }

/-- Changes whether results are told to people. -/
def withVerbose (s : Suite) (verbose : Bool) : Suite :=
  { s with context.settings.verbose := verbose }

/-- **Learns preconditions for all tests.** -/
def learnPreconditions (c : Collaborators φ σ κ) (suite : Suite) (s : Session φ κ) :
    Except HarnessError (List TestResult) × Suite × Session φ κ :=
  let s := s.note (.learningSuite suite.tests.length)
  if suite.context.settings.maxLearnerRetries = 0 then
    (.error (.invalidSettings "max_learner_retries must be at least 1"), suite, s)
  else
    match Session.learnTests c suite.context suite.tests s with
    | (results, some e, s) => (.error (.condition e), { suite with results }, s)
    | (results, none, s) =>
      let successes := results.countP fun r => !r.preconditions.isEmpty
      (.ok results, { suite with results }, s.note (.learningComplete successes results.length))

/-- **Measures all learned preconditions.** -/
def resultsAccuracy (c : Collaborators φ σ κ) (suite : Suite) (count : Nat) (s : Session φ κ) :
    Except (Halt HarnessError) (List AccuracyRecord) × Session φ κ :=
  if count = 0 then (.error (.failed (.invalidSettings "sample_count must be at least 1")), s)
  else
    match Session.measureAll c suite.context count (TestResult.pairs suite.results) s with
    | (.error halt, s) => (.error (halt.map .condition), s)
    | (.ok records, s) => (.ok records, s)

/-- Reports on all learned preconditions. -/
def evaluate (c : Collaborators φ σ κ) (suite : Suite) (s : Session φ κ) :
    Except (Halt HarnessError) Report × Session φ κ :=
  let (records, s) := suite.resultsAccuracy c suite.evaluation.sampleCount s
  (records.map .ofRecords, s)

/-- Discovers samples for a test. -/
def discover (c : Collaborators φ σ κ) (suite : Suite) (t : ObservedTest) (s : Session φ κ) :
    Except HarnessError Discovery × Session φ κ :=
  let (found, s) := s.discover c suite.context t
  (found.mapError .condition, s)

end Suite

end PreconditionMining
