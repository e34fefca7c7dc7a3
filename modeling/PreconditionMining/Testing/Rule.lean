/-
# Test bodies given as rules

A body can be given as a list of rules: where a rule's predicate holds of the
input, the body triggers a probe a number of times, or has the input classified
by another test.  The rules are followed in order.
-/

import PreconditionMining.Predicate
import PreconditionMining.Testing.Script

namespace PreconditionMining

/-- What a test body does where a rule applies. -/
inductive Rule.Action
  | trigger (probe : Probe) (times : Nat)
  | classify (test : Nat)

/-- An action of a test body, and the inputs that it is for. -/
structure Rule where
  condition : Predicate
  action : Rule.Action

/-- The body that follows rules in order. -/
def Rule.body : List Rule → String → Script
  | [], _ => .done
  | r :: rs, input =>
    if r.condition.holdsOfText input then
      match r.action with
      | .trigger p times => .trigger p times (body rs input)
      | .classify t => .classify t input fun _ => body rs input
    else body rs input

end PreconditionMining
