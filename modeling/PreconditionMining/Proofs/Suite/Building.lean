/-
# What a suite has built

A suite has solvers built and uses each of them up before it asks for the next one.  The
state of their builder changes when it is asked for a solver and at no other time, so that
the orders tell all of it: a discovery has one solver built (`Session.solvers_discover`), a
dialogue with the learner none (`Session.solvers_learn`), an attempt therefore one
(`LearningRun.solvers_attempt`), and a measurement one or two (`Session.solvers_measure`).

What each order for the tests keeps true of the builder is then kept by the learning, by
single discoveries and by the measuring of results, in whatever order these tasks are done
(`Suite.keeps_performAll`).  Taken of a builder with a record, this says that the record of a
run is a sequence of orders with the answers to them, and tells what the orders have in
common (`Suite.recorded_performAll`).
-/

import PreconditionMining.Proofs.Suite.Attempts
import PreconditionMining.Proofs.Suite.Measuring
import PreconditionMining.Proofs.Suite.Streams

namespace PreconditionMining

/-- What a solver is built from. -/
structure Order where
  grammar : Grammar
  formula : Option Formula
  options : SolverOptions

/-- An order with what came of it. -/
structure Build (σ : Type) where
  order : Order
  answer : Except SolverError σ

variable {φ σ κ : Type}

namespace Collaborators

/-- Has a solver built to order. -/
def build (c : Collaborators φ σ κ) (o : Order) (solvers : φ) : Except SolverError σ × φ :=
  c.create o.grammar o.formula o.options solvers

/-- Has solvers built to several orders, one after another. -/
def buildAll (c : Collaborators φ σ κ) : List Order → φ → List (Except SolverError σ) × φ
  | [], solvers => ([], solvers)
  | o :: later, solvers =>
    let first := c.build o solvers
    let rest := c.buildAll later first.2
    (first.1 :: rest.1, rest.2)

/-- The same collaborators, with a record of the solvers that were asked for and of what came of
it. -/
def recordingBuilds (c : Collaborators φ σ κ) : Collaborators (φ × List (Build σ)) σ κ where
  create g formula options
    | (solvers, builds) =>
      let (answer, solvers) := c.create g formula options solvers
      (answer, solvers, builds ++ [⟨⟨g, formula, options⟩, answer⟩])
  solver := c.solver
  learner := c.learner

/-- The same collaborators, but nothing is built. -/
def idle (c : Collaborators φ σ κ) : Collaborators φ σ κ :=
  { c with create := fun _ _ _ solvers => (.error .noFiniteDerivation, solvers) }

theorem buildAll_append (c : Collaborators φ σ κ) (earlier later : List Order) (solvers : φ) :
    c.buildAll (earlier ++ later) solvers =
      ((c.buildAll earlier solvers).1 ++ (c.buildAll later (c.buildAll earlier solvers).2).1,
        (c.buildAll later (c.buildAll earlier solvers).2).2) := by
  induction earlier generalizing solvers with
  | nil => rfl
  | cons o earlier ih =>
    rw [List.cons_append, buildAll, buildAll, ih]
    rfl

/-- **The record of a builder** that began in a state: it is a sequence of orders of some kind, with
the answers to them, that leads from the first state to the last. -/
structure Recorded (c : Collaborators φ σ κ) (start : φ) (wanted : Order → Prop)
    (z : φ × List (Build σ)) : Prop where
  calls : c.buildAll (z.2.map (·.order)) start = (z.2.map (·.answer), z.1)
  wanted : ∀ b ∈ z.2, wanted b.order

/-- A property of a builder that each order of some kind keeps. -/
def Keeps (c : Collaborators φ σ κ) (wanted : Order → Prop) (good : φ → Prop) : Prop :=
  ∀ o solvers, wanted o → good solvers → good (c.build o solvers).2

/-- **Each order is entered in the record.** -/
theorem keeps_recorded (c : Collaborators φ σ κ) (start : φ) (wanted : Order → Prop) :
    c.recordingBuilds.Keeps wanted (c.Recorded start wanted) := by
  rintro o ⟨solvers, builds⟩ want ⟨calls, before⟩
  constructor
  · show c.buildAll ((builds ++ [(⟨o, (c.build o solvers).1⟩ : Build σ)]).map (·.order)) start =
      ((builds ++ [(⟨o, (c.build o solvers).1⟩ : Build σ)]).map (·.answer), (c.build o solvers).2)
    rw [List.map_append, buildAll_append, calls, List.map_append]
    rfl
  · show ∀ b ∈ builds ++ [(⟨o, (c.build o solvers).1⟩ : Build σ)], wanted b.order
    rw [List.forall_mem_append]
    exact ⟨before, List.forall_mem_singleton.2 want⟩

end Collaborators

namespace Context

/-- What is ordered for a discovery for a test. -/
def discoveryOrder (ctx : Context) (t : ObservedTest) : Order :=
  ⟨ctx.grammar, ctx.formula, ctx.solverOptions t⟩

/-- What is ordered for a stream for a test under a formula. -/
def streamOrder (ctx : Context) (t : ObservedTest) (formula : Option Formula) : Order :=
  ⟨ctx.grammar, formula, ctx.streamOptions t⟩

/-- All that may be ordered for a test is of some kind. -/
structure Wants (ctx : Context) (wanted : Order → Prop) (t : ObservedTest) : Prop where
  discovery : wanted (ctx.discoveryOrder t)
  stream : ∀ formula, wanted (ctx.streamOrder t formula)

end Context

namespace Session

variable (c : Collaborators φ σ κ) (ctx : Context) (t : ObservedTest)

/-- Where nothing is built, the builder is left alone. -/
theorem lasting_solvers (solvers : φ) : Lasting c.idle ctx t fun s => s.solvers = solvers where
  note _ _ same := same
  create _ _ _ same := same
  classify _ _ same := same

/-- **A discovery has one solver built.** -/
theorem solvers_discover (s : Session φ κ) :
    (s.discover c ctx t).2.solvers = (c.build (ctx.discoveryOrder t) s.solvers).2 := by
  rcases built : (s.note (.discovering t.name t.condition.description)).create c ctx ctx.formula
    (ctx.solverOptions t) with ⟨e | q, s'⟩
  all_goals
    have after : (c.build (ctx.discoveryOrder t) s.solvers).2 = s'.solvers :=
      congrArg (fun out => out.2.solvers) built
    rw [after]
  · rw [discover]
    simp only [built]
    rfl
  · -- the solver that was built is called, and the builder is not
    have kept : (Discovery.run (sampler c ctx t) ctx.settings (q, s')).2.2.solvers = s'.solvers :=
      Discovery.good_run (lasting_solvers c ctx t s'.solvers).sampler ctx.settings (s := (q, s')) rfl
    rw [discover_of_built built]
    rcases out : Discovery.run (sampler c ctx t) ctx.settings (q, s') with ⟨e | d, q', s''⟩ <;>
      rw [out] at kept <;> exact kept

/-- In a dialogue nothing is built. -/
theorem solvers_run {α : Type} :
    ∀ (d : Dialogue α) (s : Session φ κ),
      (d.run (partner ctx t) s).2.solvers = s.solvers
  | .answer _, _ => rfl
  | .ask sample next, s => by
    rw [Dialogue.run]
    exact solvers_run (next _) (s.classify ctx t sample).2
  | .watch condition next, s => by
    rw [Dialogue.run]
    rcases observed : condition.observe s.world with ⟨e | o, w⟩
    all_goals simp only [partner, observed]
    · exact solvers_run (next (.error e)) { s with world := w }
    · exact solvers_run (next (.ok ())) { s with world := w }

/-- The learner has nothing built. -/
theorem solvers_learn (pools : Pools) (s : Session φ κ) :
    (s.learn c ctx t pools).2.solvers = s.solvers :=
  solvers_run ctx t (c.learner.learn ⟨ctx.grammar, pools, t.options.learner.getD {}⟩ s.learner) s

/-- **Drawing a stream has one solver built.** -/
theorem solvers_drawStream (count : Nat) (formula : Option Formula) (s : Session φ κ) :
    (s.drawStream c ctx count t formula).2.solvers =
      (c.build (ctx.streamOrder t formula) s.solvers).2 := by
  obtain ⟨events, effect⟩ := drawStream_effect c ctx count t formula s
  rw [effect]
  rfl

/-- **A measurement has a solver built for the raw stream, and another one for the constrained
stream** when and only when the raw stream is there. -/
theorem solvers_measure (count : Nat) (precondition : Formula) (s : Session φ κ) :
    let first := (c.build (ctx.streamOrder t ctx.formula) s.solvers).2
    let second :=
      (c.build (ctx.streamOrder t (some (.constrain ctx.formula precondition))) first).2
    ((¬ ∃ raw, c.Streams ctx t count ctx.formula s.solvers raw) ∧
      (s.measure c ctx count t precondition).2.solvers = first) ∨
    (∃ raw, c.Streams ctx t count ctx.formula s.solvers raw) ∧
      (s.measure c ctx count t precondition).2.solvers = second := by
  intro first second
  have ordered := solvers_drawStream c ctx t count ctx.formula
    (s.note (.measuring t.name precondition.text))
  have there : ∀ raw, ((s.note (.measuring t.name precondition.text)).drawStream c ctx count t
      ctx.formula).1 = .ok (some raw) ↔ c.Streams ctx t count ctx.formula s.solvers raw :=
    fun raw => drawStream_eq_some_iff
  rw [measure]
  rcases drawn : (s.note (.measuring t.name precondition.text)).drawStream c ctx count t
    ctx.formula with ⟨halt | _ | raw, s'⟩ <;> rw [drawn] at ordered there
  · refine .inl ⟨?_, ordered⟩
    rintro ⟨raw, here⟩
    cases (there raw).2 here
  · refine .inl ⟨?_, ordered⟩
    rintro ⟨raw, here⟩
    cases (there raw).2 here
  · refine .inr ⟨⟨raw, (there raw).1 rfl⟩, ?_⟩
    have ordered' :=
      solvers_drawStream c ctx t count (some (.constrain ctx.formula precondition)) s'
    rw [ordered] at ordered'
    simp only
    rcases drawn' : s'.drawStream c ctx count t (some (.constrain ctx.formula precondition))
      with ⟨halt | _ | constrained, s''⟩ <;> rw [drawn'] at ordered'
    · exact ordered'
    · exact ordered'
    · have kept := (lasting_solvers c ctx t s''.solvers).measureStreams raw constrained rfl
      simp only
      rcases judged : measureStreams ctx t raw constrained s'' with ⟨e | m, s'''⟩ <;>
        rw [judged] at kept <;> exact kept.trans ordered'

end Session

/-- **An attempt has one solver built,** for its discovery. -/
theorem LearningRun.solvers_attempt (c : Collaborators φ σ κ) (ctx : Context) (r : LearningRun)
    (s : Session φ κ) :
    (r.attempt c ctx s).2.2.solvers = (c.build (ctx.discoveryOrder r.test) s.solvers).2 := by
  have ordered := Session.solvers_discover c ctx r.test s
  rw [attempt]
  rcases found : s.discover c ctx r.test with ⟨e | d, s₁⟩ <;> rw [found] at ordered
  · exact ordered
  · have kept := Session.solvers_learn c ctx r.test (r.pools ++ d.pools) s₁
    simp only
    rw [candidates]
    rcases said : s₁.learn c ctx r.test (r.pools ++ d.pools) with ⟨(e | reason) | found, s₂⟩ <;>
      rw [said] at kept <;> exact kept.trans ordered

namespace Session

variable {c : Collaborators φ σ κ} {ctx : Context} {wanted : Order → Prop} {good : φ → Prop}

/-- **What the orders for the tests keep, the learning for them keeps.** -/
theorem keeps_learnTests (keeps : c.Keeps wanted good) {ts : List ObservedTest}
    (wants : ∀ t ∈ ts, ctx.Wants wanted t) {s : Session φ κ} (h : good s.solvers) :
    good (learnTests c ctx ts s).2.2.solvers := by
  refine learnTests_keeps (fun z => good z.solvers)
    (fun t mem => ⟨fun r => r.test = t, ⟨?_, ?_, ?_⟩, rfl⟩) h
  · exact fun _ _ kept => kept
  · exact fun _ _ own => own
  · rintro r z rfl kept
    rw [LearningRun.solvers_attempt]
    exact ⟨(LearningRun.attempt_counts c ctx r z).1, keeps _ _ (wants r.test mem).discovery kept⟩

/-- **What the orders for a test keep, its measurements keep.** -/
theorem keeps_measure (keeps : c.Keeps wanted good) {t : ObservedTest} (wants : ctx.Wants wanted t)
    (count : Nat) (precondition : Formula) {s : Session φ κ} (h : good s.solvers) :
    good (s.measure c ctx count t precondition).2.solvers := by
  have first := keeps _ s.solvers (wants.stream ctx.formula) h
  obtain ⟨-, after⟩ | ⟨-, after⟩ := solvers_measure c ctx t count precondition s <;> rw [after]
  · exact first
  · exact keeps _ _ (wants.stream _) first

theorem keeps_measureAll (keeps : c.Keeps wanted good) (count : Nat) :
    ∀ {pairs : List (ObservedTest × Formula)}, (∀ p ∈ pairs, ctx.Wants wanted p.1) →
      ∀ {s : Session φ κ}, good s.solvers → good (measureAll c ctx count pairs s).2.solvers
  | [], _, _, h => h
  | (t, f) :: rest, wants, s, h => by
    obtain ⟨wantsFirst, wantsRest⟩ := List.forall_mem_cons.1 wants
    have after := keeps_measure keeps wantsFirst count f h
    rw [measureAll]
    rcases measured : s.measure c ctx count t f with ⟨halt | m, s'⟩ <;> rw [measured] at after
    · exact after
    · have later := keeps_measureAll keeps count wantsRest after
      rcases all : measureAll c ctx count rest s' with ⟨halt | records, s''⟩ <;>
        rw [all] at later <;> simp only [all] <;> exact later

/-- Each result of a learning is one for a test that was learned for. -/
theorem test_mem_of_learnTests (c : Collaborators φ σ κ) (ctx : Context) :
    ∀ (ts : List ObservedTest) (s : Session φ κ), ∀ r ∈ (learnTests c ctx ts s).1, r.test ∈ ts
  | [], _, _, mem => nomatch mem
  | t :: ts, s, r, mem => by
    rw [learnTests] at mem
    rcases learned : s.learnTest c ctx t with ⟨e | result, s'⟩ <;> rw [learned] at mem
    · cases mem
    · rcases List.mem_cons.1 mem with rfl | later
      · exact test_of_learnTest (congrArg Prod.fst learned) ▸ List.mem_cons_self
      · exact List.mem_cons_of_mem _ (test_mem_of_learnTests c ctx ts s' r later)

end Session

namespace Suite

/-- A task of a suite: to learn for all tests, to discover samples for one, or to measure all
results on a number of samples. -/
inductive Task
  | learn
  | discover (test : ObservedTest)
  | measure (count : Nat)

/-- Does a task, whatever comes of it. -/
def perform (c : Collaborators φ σ κ) : Task → Suite × Session φ κ → Suite × Session φ κ
  | .learn, (suite, s) => (suite.learnPreconditions c s).2
  | .discover t, (suite, s) => (suite, (suite.discover c t s).2)
  | .measure count, (suite, s) => (suite, (suite.resultsAccuracy c count s).2)

/-- Does tasks one after another. -/
def performAll (c : Collaborators φ σ κ) (tasks : List Task) (z : Suite × Session φ κ) :
    Suite × Session φ κ :=
  tasks.foldl (fun z task => perform c task z) z

/-- All that may be ordered for the tests of a suite, those of its results and those of some tasks
is of some kind. -/
structure Wants (suite : Suite) (wanted : Order → Prop) (tasks : List Task) : Prop where
  tests : ∀ t ∈ suite.tests, suite.context.Wants wanted t
  results : ∀ r ∈ suite.results, suite.context.Wants wanted r.test
  discovered : ∀ t, .discover t ∈ tasks → suite.context.Wants wanted t

variable {c : Collaborators φ σ κ} {wanted : Order → Prop} {good : φ → Prop}

/-- **What the orders for the tests keep, a task keeps,** and after it the tests are as before. -/
theorem keeps_perform (keeps : c.Keeps wanted good) {task : Task} {tasks : List Task}
    {suite : Suite} (wants : suite.Wants wanted (task :: tasks)) {s : Session φ κ}
    (h : good s.solvers) :
    good (perform c task (suite, s)).2.solvers ∧
      (perform c task (suite, s)).1.Wants wanted tasks := by
  have later : suite.Wants wanted tasks :=
    ⟨wants.tests, wants.results, fun t mem => wants.discovered t (List.mem_cons_of_mem _ mem)⟩
  cases task with
  | learn =>
    rw [perform, learnPreconditions]
    split
    · exact ⟨h, later⟩
    · have kept := Session.keeps_learnTests keeps wants.tests
        (s := s.note (.learningSuite suite.tests.length)) h
      have own := Session.test_mem_of_learnTests c suite.context suite.tests
        (s.note (.learningSuite suite.tests.length))
      rcases learned : Session.learnTests c suite.context suite.tests
        (s.note (.learningSuite suite.tests.length)) with ⟨results, _ | e, s'⟩
      all_goals
        rw [learned] at kept own
        exact ⟨kept, later.tests, fun r mem => later.tests r.test (own r mem), later.discovered⟩
  | discover t =>
    refine ⟨?_, later⟩
    show good (s.discover c suite.context t).2.solvers
    rw [Session.solvers_discover]
    exact keeps _ _ (wants.discovered t List.mem_cons_self).discovery h
  | measure count =>
    refine ⟨?_, later⟩
    show good (suite.resultsAccuracy c count s).2.solvers
    have measured : ∀ p ∈ TestResult.pairs suite.results, suite.context.Wants wanted p.1 := by
      intro p mem
      obtain ⟨r, stored, mem⟩ := List.mem_flatMap.1 mem
      obtain ⟨f, -, rfl⟩ := List.mem_map.1 mem
      exact wants.results r stored
    have kept := Session.keeps_measureAll keeps count measured h
    rw [resultsAccuracy]
    split
    · exact h
    · rcases all : Session.measureAll c suite.context count (TestResult.pairs suite.results) s
        with ⟨halt | records, s'⟩ <;> rw [all] at kept <;> exact kept

/-- **What the orders for the tests keep, all tasks keep,** whatever comes of them. -/
theorem keeps_performAll (keeps : c.Keeps wanted good) {tasks : List Task} {suite : Suite}
    (wants : suite.Wants wanted tasks) {s : Session φ κ} (h : good s.solvers) :
    good (performAll c tasks (suite, s)).2.solvers := by
  induction tasks generalizing suite s with
  | nil => exact h
  | cons task tasks ih =>
    obtain ⟨kept, later⟩ := keeps_perform keeps wants h
    exact ih later kept

/-- **The record of a run is a sequence of orders for its tests, with the answers to them.** -/
theorem recorded_performAll (c : Collaborators φ σ κ) {tasks : List Task} {suite : Suite}
    (wants : suite.Wants wanted tasks) {start : φ} {s : Session (φ × List (Build σ)) κ}
    (fresh : s.solvers = (start, [])) :
    c.Recorded start wanted (performAll c.recordingBuilds tasks (suite, s)).2.solvers := by
  refine keeps_performAll (c.keeps_recorded start wanted) wants ?_
  rw [fresh]
  exact ⟨rfl, fun _ mem => nomatch mem⟩

end Suite

end PreconditionMining
