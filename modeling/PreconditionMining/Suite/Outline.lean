/-
# Outlines of tests, contexts and constraints

How a registered test, the context of a suite and the constraints of a fuzzer
are shown to those who look inside.  What has no text of its own is left out, and
the number of a test is shown as it is given.
-/

import PreconditionMining.Fuzzer.Constraint
import PreconditionMining.Settings.Outline
import PreconditionMining.Suite.Session

namespace PreconditionMining

mutual

/-- The outline of a formula. -/
def Formula.outline : Formula → Outline
  | .atom t => .form "Atom" (.text t)
  | .all parts => .form "And" (.list (Formula.outlineAll parts))

/-- The outlines of formulas. -/
def Formula.outlineAll : List Formula → List Outline
  | [] => []
  | f :: fs => f.outline :: Formula.outlineAll fs

end

/-- The outline of a grammar. -/
def Grammar.outline (g : Grammar) : Outline :=
  .record "Grammar" true [("rules", .map (g.rules.entries.map fun (name, alternatives) =>
    (name, .list (alternatives.map .text))))]

/-- The outline of a test whose number is shown as a given word. -/
def ObservedTest.outline (number : String) (t : ObservedTest) : Outline :=
  .record "ObservableTest" false [("id", .word number), ("name", .text t.name),
    ("condition", .text t.condition.description), ("options", t.options.outline)]

/-- The outline of a context. -/
def Context.outline (ctx : Context) : Outline :=
  .record "SuiteContext" false [("grammar", ctx.grammar.outline),
    ("formula", .optional Formula.outline ctx.formula), ("settings", ctx.settings.outline),
    ("input_adapter", .bool ctx.adapter.isSome)]

/-- The outline of constraints. -/
def Constraints.outline (constraints : Constraints) : Outline :=
  .record "ConstraintRegistry" true [("names", .list (constraints.keys.map .text))]

/-- The outline of a compiled formula. -/
def CompiledFormula.outline (f : CompiledFormula) : Outline :=
  .record "CompiledFormula" false [("text", .text f.text)]

end PreconditionMining
