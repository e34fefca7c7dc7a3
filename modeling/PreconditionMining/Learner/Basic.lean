/-
# Learners

A learner is shown a grammar and two pools of samples and names candidates for a
precondition: formulas, each with the share of its samples that are positive and
the share of the positive samples that it covers.  Like a solver it is a machine
over a state of its own.
-/

import PreconditionMining.Formula
import PreconditionMining.Grammar.Basic
import PreconditionMining.Learner.Dialogue
import PreconditionMining.Pools
import PreconditionMining.Settings.Options

namespace PreconditionMining

/-- Why a learner names no candidates. -/
inductive LearnerError
  /-- The oracle refused to answer. -/
  | oracle (cause : ConditionError)
  /-- Anything else, in words. -/
  | failed (reason : String)
deriving DecidableEq

/-- The name of a cause. -/
def LearnerError.name : LearnerError → String
  | .oracle _ => "Oracle"
  | .failed _ => "Failed"

/-- The text of a cause. -/
def LearnerError.message : LearnerError → String
  | .oracle cause => "Oracle misuse: " ++ cause.message
  | .failed reason => "Learner failed: " ++ reason

/-- A candidate for a precondition. -/
structure Candidate where
  formula : Formula
  precision : Float
  coverage : Float

/-- What a learner is asked. -/
structure LearningRequest where
  grammar : Grammar
  pools : Pools
  options : LearnerOptions

/-- A source of candidates over states of type `κ`. -/
structure Learner (κ : Type) where
  learn : LearningRequest → κ → Dialogue (Except LearnerError (List Candidate) × κ)

end PreconditionMining
