/-
# A scripted learner

A learner whose answers are fixed beforehand: nothing for a number of calls, and
then always the same candidates; or always the same failure.  It may first have
the oracle confirm each positive sample.  It keeps a record of its calls.
-/

import PreconditionMining.Learner.Basic

namespace PreconditionMining

/-- What a scripted learner does. -/
structure LearnerScript where
  candidates : List Candidate := []
  /-- How many calls are answered with nothing. -/
  emptyCalls : Nat := 0
  /-- The reason that is given instead of an answer. -/
  failure : Option String := none
  /-- Whether the oracle is asked about each positive sample. -/
  checksOracle : Bool := false

/-- The record of one call of a scripted learner. -/
structure LearnerCall where
  sizes : PoolSizes
  patterns : Option NameSet
  /-- How many positive samples the oracle confirmed, if it was asked. -/
  confirmed : Option Nat

namespace LearnerScript

/-- Records a call and answers it. -/
def reply (script : LearnerScript) (request : LearningRequest) (confirmed : Option Nat)
    (calls : List LearnerCall) : Except LearnerError (List Candidate) × List LearnerCall :=
  let call := ⟨request.pools.sizes, request.options.activatedPatterns, confirmed⟩
  let answer :=
    match script.failure with
    | some reason => .error (.failed reason)
    | none => .ok (if calls.length < script.emptyCalls then [] else script.candidates)
  (answer, calls ++ [call])

/-- The learner that follows a script; its state is the record of its calls. -/
def learner (script : LearnerScript) : Learner (List LearnerCall) where
  learn request calls :=
    if script.checksOracle then
      Dialogue.askAll request.pools.positive 0 fun
        | .error e => .answer (.error (.oracle e), calls)
        | .ok confirmed => .answer (script.reply request (some confirmed) calls)
    else .answer (script.reply request none calls)

end LearnerScript

/-- The learner that first watches a condition and asks about each positive sample, and then
does as another learner does. -/
def Learner.watching {κ : Type} (condition : Condition) (learner : Learner κ) : Learner κ where
  learn request state :=
    .watch condition fun
      | .error e => .answer (.error (.oracle e), state)
      | .ok () => Dialogue.askAll request.pools.positive 0 fun
        | .error e => .answer (.error (.oracle e), state)
        | .ok _ => learner.learn request state

end PreconditionMining
