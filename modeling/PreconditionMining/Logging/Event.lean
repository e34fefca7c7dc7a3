/-
# Events

What a run tells about itself while it works: the activities that it enters and
the facts that it notes, each with its particulars.  `Event.record` gives an
event its level, its wording and the names of its particulars.

With verbose settings what was discovered and learned is told to people, with
examples; otherwise it is told at a level for those who look closely.
-/

import PreconditionMining.Discovery.Stop
import PreconditionMining.Logging.Level
import PreconditionMining.Pools

namespace PreconditionMining

/-- Something that a run tells about itself. -/
inductive Event
  /-- The fuzzer found no sample that it had not returned before. -/
  | nothingNew (repeats distinct : Nat)
  | explorationStopped (cause : SolverError)
  | noPositiveSeeds
  | sweepComplete (sweep : Nat) (sizes : PoolSizes)
  | mutationStopped (cause : SolverError)
  /-- A discovery for a test begins. -/
  | discovering (test condition : String)
  | discoverySolverMissing (cause : SolverError)
  /-- A discovery is complete; with a sample from the middle of each pool. -/
  | discovered (verbose : Bool) (sizes : PoolSizes) (stop : Stop)
      (positiveExample negativeExample : Option String)
  /-- The learning for all tests begins. -/
  | learningSuite (tests : Nat)
  /-- The learning for one test begins. -/
  | enteringTest (test condition : String)
  | learning
  | learnerFailed (reason : String)
  | attemptComplete (attempt : Nat) (sizes : PoolSizes) (candidates : Nat)
  | severalAttempts (attempts : Nat)
  | noPreconditions (attempts : Nat)
  | learned (verbose : Bool) (precision coverage : Float) (formula : String)
  | learningComplete (successes total : Nat)
  /-- The measurement of a precondition begins. -/
  | measuring (test precondition : String)
  | evaluationSolverMissing (cause : SolverError)
  | evaluationStreamFailed (cause : SolverError) (drawn : Nat)
  | rawStreamMissing
  | constrainedStreamMissing
  | measured (rawPrecision resultingPrecision : Float)

/-- A particular of an event. -/
inductive Particular
  | natural (n : Nat)
  | number (x : Float)
  | text (s : String)

/-- An event in words: its level, or that it opens an activity; its wording; and its
particulars by name. -/
structure Event.Record where
  level : Level
  opensActivity : Bool
  wording : String
  particulars : List (String × Particular)

namespace Event

/-- A fact noted at a level. -/
def note (level : Level) (wording : String) (particulars : List (String × Particular)) : Record :=
  ⟨level, false, wording, particulars⟩

/-- The opening of an activity. -/
def opening (activity : String) (particulars : List (String × Particular)) : Record :=
  ⟨.info, true, activity, particulars⟩

/-- The level at which results are told. -/
def resultLevel (verbose : Bool) : Level := if verbose then .info else .debug

/-- The two sizes as particulars. -/
def sizeParticulars (sizes : PoolSizes) : List (String × Particular) :=
  [("positive", .natural sizes.positive), ("negative", .natural sizes.negative)]

/-- An event in words. -/
def record : Event → Record
  | nothingNew repeats distinct =>
    note .trace "no new sample found"
      [("repeats", .natural repeats), ("distinct", .natural distinct)]
  | explorationStopped cause =>
    note .debug "exploration stopped by solver" [("error", .text cause.message)]
  | noPositiveSeeds => note .debug "no positive examples to mutate" []
  | sweepComplete sweep sizes =>
    note .debug "mutation sweep complete" (("sweep", .natural sweep) :: sizeParticulars sizes)
  | mutationStopped cause =>
    note .debug "mutation stopped by solver" [("error", .text cause.message)]
  | discovering test condition =>
    opening "fuzz_samples" [("test", .text test), ("condition", .text condition)]
  | discoverySolverMissing cause =>
    note .warn "could not build discovery solver" [("error", .text cause.message)]
  | discovered verbose sizes stop positive negative =>
    note (resultLevel verbose) "discovered samples" <|
      sizeParticulars sizes ++ ("stop", .text stop.text) ::
        if verbose then
          [("positive_example", .text (positive.getD "-")),
            ("negative_example", .text (negative.getD "-"))]
        else []
  | learningSuite tests => opening "learn_preconditions" [("tests", .natural tests)]
  | enteringTest test condition =>
    opening "learn_test_preconditions" [("test", .text test), ("condition", .text condition)]
  | learning => note .info "learning preconditions" []
  | learnerFailed reason =>
    note .warn "learner failed, treating attempt as empty" [("reason", .text reason)]
  | attemptComplete attempt sizes candidates =>
    note .debug "learning attempt complete" <|
      ("attempt", .natural attempt) :: sizeParticulars sizes ++
        [("candidates", .natural candidates)]
  | severalAttempts attempts =>
    note .info "learner needed several attempts" [("attempts", .natural attempts)]
  | noPreconditions attempts =>
    note .warn "no preconditions found" [("attempts", .natural attempts)]
  | learned verbose precision coverage formula =>
    note (resultLevel verbose) "learned precondition"
      [("precision", .number precision), ("recall", .number coverage), ("formula", .text formula)]
  | learningComplete successes total =>
    note .info "learning complete" [("learned", .natural successes), ("total", .natural total)]
  | measuring test precondition =>
    opening "measure" [("test", .text test), ("precondition", .text precondition)]
  | evaluationSolverMissing cause =>
    note .warn "could not build evaluation solver" [("error", .text cause.message)]
  | evaluationStreamFailed cause drawn =>
    note .warn "evaluation stream failed"
      [("error", .text cause.message), ("drawn", .natural drawn)]
  | rawStreamMissing =>
    note .warn "could not generate the raw stream, precondition unmeasured" []
  | constrainedStreamMissing =>
    note .warn "could not generate the constrained stream, precondition unmeasured" []
  | measured raw resulting =>
    note .info "measured precondition"
      [("raw_precision", .number raw), ("resulting_precision", .number resulting)]

end Event

end PreconditionMining
