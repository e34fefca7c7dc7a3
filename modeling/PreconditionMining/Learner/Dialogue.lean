/-
# Dialogues

A learner that works on two pools may ask whether a sample triggers the
condition, and may depend on the answers.  It may also watch a condition itself
while it works.  A dialogue is such a course of work, as a tree that ends in an
answer.

`run` follows a dialogue over a state.  A condition that is watched is held
until the dialogue has ended.
-/

import PreconditionMining.Condition.Observation
import PreconditionMining.Tree

namespace PreconditionMining

/-- A course of work that ends in a value of type `α`. -/
inductive Dialogue (α : Type)
  | answer (a : α)
  /-- Asks whether a sample triggers the condition that is learned about. -/
  | ask (sample : Tree) (next : Except ConditionError Bool → Dialogue α)
  /-- Begins to watch a condition, which is held to the end. -/
  | watch (condition : Condition) (next : Except ConditionError Unit → Dialogue α)

namespace Dialogue

variable {α ς : Type}

/-- What a dialogue is held with: an oracle, and how conditions are observed and released. -/
structure Partner (ς : Type) where
  ask : Tree → ς → Except ConditionError Bool × ς
  observe : Condition → ς → Except ConditionError Observation × ς
  release : Observation → ς → ς

/-- The other side that only answers questions, and lets nothing be watched. -/
def Partner.ofOracle (ask : Tree → ς → Except ConditionError Bool × ς) : Partner ς where
  ask
  observe c s := (.error (.observationInFlight c.description), s)
  release _ s := s

/-- Follows a dialogue to its answer. -/
def run (partner : Partner ς) : Dialogue α → ς → α × ς
  | answer a, s => (a, s)
  | ask sample next, s =>
    let (verdict, s) := partner.ask sample s
    run partner (next verdict) s
  | watch condition next, s =>
    match partner.observe condition s with
    | (.error e, s) => run partner (next (.error e)) s
    | (.ok o, s) =>
      let (a, s) := run partner (next (.ok ())) s
      (a, partner.release o s)

/-- Asks about samples one after another and counts those that trigger, up to the first
question that fails. -/
def askAll (samples : List Tree) (confirmed : Nat)
    (next : Except ConditionError Nat → Dialogue α) : Dialogue α :=
  match samples with
  | [] => next (.ok confirmed)
  | t :: ts => ask t fun
    | .error e => next (.error e)
    | .ok triggered => askAll ts (if triggered then confirmed + 1 else confirmed) next

end Dialogue

end PreconditionMining
