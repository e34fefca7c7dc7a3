/-
# Test bodies

What a test body does on one input, as far as the harness can see it: it
triggers probes and it has other tests classified, where what it does next may
depend on the verdict.  A script is such a course of action as a tree.

Tests that classify one another are only named here, by their place in the
register, so that a test may come to classify itself.
-/

import PreconditionMining.Condition.Observation
import PreconditionMining.Settings.Options

namespace PreconditionMining

/-- A course of action of a test body. -/
inductive Script
  | done
  | trigger (probe : Probe) (times : Nat) (next : Script)
  | classify (test : Nat) (input : String) (next : Except ConditionError Bool → Script)

/-- One thing that a test body did. -/
inductive Deed
  | triggered (probe : Probe) (times : Nat)
  | classified (test : Nat) (verdict : Except ConditionError Bool)

/-- The verdict of a classification made by a test body. -/
def Deed.verdict? : Deed → Option (Nat × Except ConditionError Bool)
  | triggered _ _ => none
  | classified t v => some (t, v)

/-- A test that is watched under one condition. -/
structure ObservedTest where
  /-- Tells tests apart that are alike in all else. -/
  id : Nat
  name : String
  condition : Condition
  body : String → Script
  options : ObserveOptions := {}

end PreconditionMining
