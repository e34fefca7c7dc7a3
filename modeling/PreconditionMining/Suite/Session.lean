/-
# Sessions

A suite works with collaborators: a builder of solvers and a learner.  What
changes while it works is one value, the session: the world of probes, the
states of the collaborators, the events told so far and the deeds of the test
bodies.

The context is what does not change during a task: the grammar and base formula,
the settings, how a sample becomes the input of a test, and the registered tests.
-/

import PreconditionMining.Discovery.Basic
import PreconditionMining.Learner.Basic
import PreconditionMining.Testing.Classification

namespace PreconditionMining

/-- The collaborators of a suite: solvers over states of type `σ`, built over a state of type
`φ`, and a learner over states of type `κ`. -/
structure Collaborators (φ σ κ : Type) where
  create : Grammar → Option Formula → SolverOptions → φ → Except SolverError σ × φ
  solver : Solver σ
  learner : Learner κ

/-- The same collaborators, with a record of the formula and the options of each solver that was
asked for. -/
def Collaborators.recording {φ σ κ : Type} (c : Collaborators φ σ κ) :
    Collaborators (φ × List (Option Formula × SolverOptions)) σ κ where
  create g formula options
    | (solvers, asked) =>
      let (built, solvers) := c.create g formula options solvers
      (built, solvers, asked ++ [(formula, options)])
  solver := c.solver
  learner := c.learner

/-- What a suite works on. -/
structure Context where
  grammar : Grammar
  formula : Option Formula
  settings : SuiteSettings := {}
  /-- How a sample becomes the input of a test; by its rendering where nothing is said. -/
  adapter : Option (Tree → String) := none
  /-- The registered tests, in the order of their registration. -/
  register : List ObservedTest := []

/-- What changes while a suite works. -/
structure Session (φ κ : Type) where
  world : World
  solvers : φ
  learner : κ
  events : Array Event := #[]
  deeds : Array Deed := #[]

namespace Context

/-- The input that a sample is for a test. -/
def input (ctx : Context) (sample : Tree) : String :=
  match ctx.adapter with
  | none => sample.render
  | some adapt => adapt sample

/-- The options of the solvers for a test. -/
def solverOptions (ctx : Context) (t : ObservedTest) : SolverOptions :=
  match t.options.solver with
  | none => ctx.settings.solver
  | some given => ctx.settings.solver.apply given

end Context

namespace Session

variable {φ σ κ : Type}

/-- Adds an event. -/
def note (s : Session φ κ) (e : Event) : Session φ κ := { s with events := s.events.push e }

/-- Adds events. -/
def noteAll (s : Session φ κ) (es : List Event) : Session φ κ := es.foldl note s

/-- Classifies a sample by a test. -/
def classify (ctx : Context) (t : ObservedTest) (sample : Tree) (s : Session φ κ) :
    Except ConditionError Bool × Session φ κ :=
  let out := t.classify ctx.register (ctx.input sample) s.world
  (out.verdict, { s with world := out.world, deeds := s.deeds ++ out.deeds })

/-- Has a solver built. -/
def create (c : Collaborators φ σ κ) (ctx : Context) (formula : Option Formula)
    (options : SolverOptions) (s : Session φ κ) : Except SolverError σ × Session φ κ :=
  let (built, solvers) := c.create ctx.grammar formula options s.solvers
  (built, { s with solvers })

/-- A sampler that draws from a solver and has a test judge. -/
def sampler (c : Collaborators φ σ κ) (ctx : Context) (t : ObservedTest) :
    Sampler (σ × Session φ κ) :=
  .ofSolver c.solver (fun sample s => s.classify ctx t sample) fun e s => s.note e

/-- The event that tells of a discovery. -/
def discovered (ctx : Context) (d : Discovery) : Event :=
  let (positive, negative) := d.pools.midpoints
  .discovered ctx.settings.verbose d.pools.sizes d.stop
    (positive.map Tree.render) (negative.map Tree.render)

/-- **Discovers samples for a test.**  Where no solver can be built, nothing is discovered. -/
def discover (c : Collaborators φ σ κ) (ctx : Context) (t : ObservedTest) (s : Session φ κ) :
    Except ConditionError Discovery × Session φ κ :=
  let s := s.note (.discovering t.name t.condition.description)
  match s.create c ctx ctx.formula (ctx.solverOptions t) with
  | (.error e, s) => (.ok (.nothing (.ofSolver e)), s.note (.discoverySolverMissing e))
  | (.ok q, s) =>
    match Discovery.run (sampler c ctx t) ctx.settings (q, s) with
    | (.error e, _, s) => (.error e, s)
    | (.ok d, _, s) => (.ok d, s.note (discovered ctx d))

/-- The other side of a learner's dialogue about a test. -/
def partner (ctx : Context) (t : ObservedTest) : Dialogue.Partner (Session φ κ) where
  ask sample s := s.classify ctx t sample
  observe condition s :=
    let (granted, world) := condition.observe s.world
    (granted, { s with world })
  release o s := { s with world := o.release s.world }

/-- Has the learner name candidates for a test. -/
def learn (c : Collaborators φ σ κ) (ctx : Context) (t : ObservedTest) (pools : Pools)
    (s : Session φ κ) : Except LearnerError (List Candidate) × Session φ κ :=
  let request := ⟨ctx.grammar, pools, t.options.learner.getD {}⟩
  let ((answer, learner), s) := (c.learner.learn request s.learner).run (partner ctx t) s
  (answer, { s with learner })

end Session

end PreconditionMining
