/-
# Precondition dumps

The learned preconditions as plain text: a block for each test with its name in
brackets, and after the name each precondition in a paragraph of its own.  Blocks
are two empty lines apart, paragraphs one.
-/

import PreconditionMining.Suite.Learning

namespace PreconditionMining

namespace TestResult

/-- The block of a result. -/
def block (r : TestResult) : String :=
  "[" ++ r.test.name ++ "]" ++ String.join (r.preconditions.map fun f => "\n\n" ++ f.text)

/-- The dump of results. -/
def dump (results : List TestResult) : String := String.intercalate "\n\n\n" (results.map block)

end TestResult

end PreconditionMining
