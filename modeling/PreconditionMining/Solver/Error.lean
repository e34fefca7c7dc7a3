/-
# Why a solver gives no sample

Two of the causes are ends that a search meets in good order: there may be no
further sample, or no time left.  The others mean that something is wrong.
-/

import PreconditionMining.Grammar.Basic
import PreconditionMining.Text.Duration

namespace PreconditionMining

/-- Why a solver gives no sample. -/
inductive SolverError
  /-- Every sample that was found had been returned before. -/
  | exhausted
  /-- The time budget of a call, in milliseconds, is spent. -/
  | timeout (milliseconds : Nat)
  /-- A formula has an atom that the solver does not know. -/
  | unsupportedFormula (atom : String)
  /-- The grammar has a defect. -/
  | grammar (defect : GrammarError)
  /-- Anything else, in words. -/
  | failed (reason : String)
deriving DecidableEq

namespace SolverError

/-- The name of a cause. -/
def name : SolverError → String
  | exhausted => "Exhausted"
  | timeout _ => "Timeout"
  | unsupportedFormula _ => "UnsupportedFormula"
  | grammar _ => "Grammar"
  | failed _ => "Failed"

/-- The text of a cause. -/
def message : SolverError → String
  | exhausted => "No more distinct solutions"
  | timeout ms => "Solver timed out after " ++ Duration.ofMilliseconds ms
  | unsupportedFormula atom => "Unsupported formula: " ++ atom
  | grammar defect => "Grammar error: " ++ defect.message
  | failed reason => "Solver failed: " ++ reason

/-- Whether a search may end like this in good order. -/
def isExpected : SolverError → Bool
  | exhausted | timeout _ => true
  | _ => false

/-- The start symbol of the grammar has no finite derivation. -/
def noFiniteDerivation : SolverError := failed (startSymbol ++ " has no finite derivation")

/-- No drawn sample satisfied the formula. -/
def noSample (formula : String) (attempts : Nat) : SolverError :=
  failed ("no sample satisfying " ++ formula ++ " in " ++ toString attempts ++ " attempts")

end SolverError

end PreconditionMining
