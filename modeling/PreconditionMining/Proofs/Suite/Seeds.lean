/-
# Every solver draws its own stream

A factory of fuzzers counts the orders that it is given, those that fail too, and adds the
count to the seed of each order, in 64 bits (`Order.seedAfter`).  So what it answers to an
order is settled by the orders before it through their number alone
(`Collaborators.buildAll_ofFactory`).  It does not matter for which test a solver is built,
for which of its attempts, or for which stream of a measurement.

Whatever a suite does, its record is a sequence of orders (`Suite.exists_record`).  Where all
tests resolve to one seed, these orders have it in common, and no two of them are built from
the same seed before the count has gone all the way round.  `Suite.solvers_draw_apart` says
this of any run, with the two streams of a measurement, which are built one after the other.
-/

import PreconditionMining.Proofs.Suite.Fuzzers
import PreconditionMining.Proofs.Suite.Recording

namespace PreconditionMining

/-- A fuzzer begins with the draws that it was built with. -/
theorem Fuzzer.draws_of_build {ρ : Type} {g : Grammar} {formula : Option Formula}
    {options : SolverOptions} {constraints : Constraints} {draws : ρ} {start : Fuzzer ρ}
    (built : build g formula options constraints draws = .ok start) : start.draws = draws := by
  unfold build at built
  split at built
  · cases built
  · split at built
    · cases built
      rfl
    · cases built

namespace Order

/-- The seed that an order with a seed is built from after `n` other orders. -/
def seedAfter (n : Nat) (o : Order) : Option Nat :=
  o.options.seed.map fun seed => (seed + n) % Nat.pow 2 64

/-- What a factory with some constraints answers to an order after `n` other orders. -/
def answerAfter (constraints : Constraints) (n : Nat) (o : Order) :
    Except SolverError (Fuzzer WordStream) :=
  Fuzzer.ofOptions o.grammar o.formula { o.options with seed := o.seedAfter n } constraints

/-- The build of an order by a factory with some constraints, after `n` other orders. -/
def builtAfter (constraints : Constraints) (n : Nat) (o : Order) : Build (Fuzzer WordStream) :=
  ⟨o, o.answerAfter constraints n⟩

/-- **A fuzzer that was built draws the stream of its seed.** -/
theorem seed_of_answerAfter {constraints : Constraints} {n : Nat} {o : Order}
    {f : Fuzzer WordStream} (built : o.answerAfter constraints n = .ok f) :
    f.options.seed = o.seedAfter n ∧ f.draws = .ofSeed ((o.seedAfter n).getD 0) := by
  rw [answerAfter, Fuzzer.ofOptions] at built
  exact ⟨congrArg SolverOptions.seed (Fuzzer.of_build built).2.1, Fuzzer.draws_of_build built⟩

theorem seedAfter_of_seed {o : Order} {seed : Nat} (has : o.options.seed = some seed) (n : Nat) :
    o.seedAfter n = some ((seed + n) % Nat.pow 2 64) := by
  rw [seedAfter, has, Option.map_some]

/-- **The seed after one order more is the next one.** -/
theorem seedAfter_succ {o o' : Order} (same : o'.options.seed = o.options.seed) (n : Nat) :
    o'.seedAfter (n + 1) = (o.seedAfter n).map fun seed => (seed + 1) % Nat.pow 2 64 := by
  have next : ∀ seed,
      (seed + (n + 1)) % Nat.pow 2 64 = ((seed + n) % Nat.pow 2 64 + 1) % Nat.pow 2 64 := by
    intro seed
    rw [Nat.mod_add_mod, Nat.add_assoc]
  rw [seedAfter, seedAfter, same, Option.map_map]
  exact congrArg (o.options.seed.map ·) (funext next)

/-- **Orders for one seed are built from different ones,** where not too many orders came between
them. -/
theorem seedAfter_ne {o o' : Order} {seed : Nat} (has : o.options.seed = some seed)
    (has' : o'.options.seed = some seed) {first m n : Nat} (hm : m < Nat.pow 2 64)
    (hn : n < Nat.pow 2 64) (apart : m ≠ n) :
    o.seedAfter (first + m) ≠ o'.seedAfter (first + n) := by
  rw [seedAfter_of_seed has, seedAfter_of_seed has']
  intro same
  have same := Option.some.inj same
  have range : Nat.pow 2 64 = 18446744073709551616 := rfl
  rw [range] at same hm hn
  omega

/-- At the top of the range the seeds go on from 0. -/
example (g : Grammar) :
    (Order.mk g none { seed := some (Nat.pow 2 64 - 1) }).seedAfter 1 = some 0 := rfl

end Order

namespace Collaborators

variable {κ : Type} (learner : Learner κ)

/-- **A factory answers an order by the number of the orders before it,** and counts it. -/
theorem build_ofFactory (o : Order) (f : FuzzerFactory) :
    (ofFactory learner).build o f =
      (o.answerAfter f.constraints f.builds, { f with builds := f.builds + 1 }) := rfl

/-- **Orders are answered by their places, and counted,** whether they succeed or not. -/
theorem buildAll_ofFactory (orders : List Order) (f : FuzzerFactory) :
    (ofFactory learner).buildAll orders f =
      (orders.mapIdx fun n o => o.answerAfter f.constraints (f.builds + n),
        { f with builds := f.builds + orders.length }) := by
  induction orders generalizing f with
  | nil => rfl
  | cons o orders ih =>
    have places : ∀ n, f.builds + 1 + n = f.builds + (n + 1) := fun n => by omega
    rw [buildAll, build_ofFactory, ih, List.mapIdx_cons, List.length_cons]
    simp only [places]
    rfl

/-- **The record of a factory** tells each answer by its place, and the factory has counted it. -/
theorem Recorded.of_factory {learner : Learner κ} {start f : FuzzerFactory}
    {builds : List (Build (Fuzzer WordStream))} {wanted : Order → Prop}
    (h : (ofFactory learner).Recorded start wanted (f, builds)) :
    f = { start with builds := start.builds + builds.length } ∧
      ∀ n (b : Build (Fuzzer WordStream)), builds[n]? = some b →
        b.answer = b.order.answerAfter start.constraints (start.builds + n) := by
  have calls := h.calls
  rw [buildAll_ofFactory, List.length_map] at calls
  obtain ⟨answers, counted⟩ := Prod.mk.inj calls
  refine ⟨counted.symm, fun n b here => ?_⟩
  have answer := congrArg (fun answers => answers[n]?) answers
  simp only [List.getElem?_mapIdx, List.getElem?_map, here, Option.map_some] at answer
  exact (Option.some.inj answer).symm

end Collaborators

namespace Suite

/-- Each test of a suite, of its results and of some tasks resolves to one seed. -/
def ResolvesTo (suite : Suite) (seed : Nat) (tasks : List Task) : Prop :=
  ∀ t, (t ∈ suite.tests ∨ (∃ r ∈ suite.results, r.test = t) ∨ .discover t ∈ tasks) →
    (suite.context.solverOptions t).seed = some seed

/-- All orders for tests that resolve to one seed have it. -/
theorem ResolvesTo.wants {suite : Suite} {seed : Nat} {tasks : List Task}
    (h : suite.ResolvesTo seed tasks) :
    suite.Wants (fun o => o.options.seed = some seed) tasks where
  tests t mem := ⟨h t (.inl mem), fun _ => h t (.inl mem)⟩
  results r mem :=
    have own := h r.test (.inr (.inl ⟨r, mem, rfl⟩))
    ⟨own, fun _ => own⟩
  discovered t mem := ⟨h t (.inr (.inr mem)), fun _ => h t (.inr (.inr mem))⟩

/-- **The builds of a measurement by a factory:** one for the raw stream, and where this stream is
there another one for the constrained stream, right after it. -/
theorem record_measure {κ : Type} (learner : Learner κ) (ctx : Context) (count : Nat)
    (t : ObservedTest) (precondition : Formula) (s : Session FuzzerFactory κ)
    (builds : List (Build (Fuzzer WordStream))) :
    let c := Collaborators.ofFactory learner
    let raw := ctx.streamOrder t ctx.formula
    let constrained := ctx.streamOrder t (some (.constrain ctx.formula precondition))
    let first := raw.builtAfter s.solvers.constraints s.solvers.builds
    let second := constrained.builtAfter s.solvers.constraints (s.solvers.builds + 1)
    let record :=
      ((s.withBuilds builds).measure c.recordingBuilds ctx count t precondition).2.solvers.2
    ((¬ ∃ samples, c.Streams ctx t count ctx.formula s.solvers samples) ∧
      record = builds ++ [first]) ∨
    (∃ samples, c.Streams ctx t count ctx.formula s.solvers samples) ∧
      record = builds ++ [first, second] := by
  intro c raw constrained first second record
  obtain ⟨missing, after⟩ | ⟨there, after⟩ :=
    Session.solvers_measure c.recordingBuilds ctx t count precondition (s.withBuilds builds)
  · exact .inl ⟨missing, congrArg Prod.snd after⟩
  · refine .inr ⟨there, ?_⟩
    have both : record = builds ++ [first] ++ [second] := congrArg Prod.snd after
    rw [both, List.append_assoc]
    rfl

/-- **Every solver draws its own stream.**  A factory answers an order by the number of the orders
before it: with the seed of the order plus that number, in 64 bits; and it counts each order,
whatever the grammar, the formula and the options are and whether a fuzzer comes of it.  A fuzzer
that does draws the stream of that seed.

Let all tests resolve to one seed, and let a suite learn for its tests, discover samples and measure
its results in any order and as often as one likes.  Then the factory has counted the builds of this
run, each is built by its place among them, and no two of at most `2 ^ 64` builds have the same
seed.  A measurement has a solver built for the raw stream, and where this stream is there another
one right after it for the constrained stream, from the seed that follows that of the raw one. -/
theorem solvers_draw_apart {κ : Type} (learner : Learner κ) :
    let c := Collaborators.ofFactory learner
    (∀ (factory : FuzzerFactory) (orders : List Order),
      c.buildAll orders factory =
        (orders.mapIdx fun n o => o.answerAfter factory.constraints (factory.builds + n),
          { factory with builds := factory.builds + orders.length })) ∧
    (∀ (constraints : Constraints) (n : Nat) (o : Order) (f : Fuzzer WordStream),
      o.answerAfter constraints n = .ok f →
        f.options.seed = o.seedAfter n ∧ f.draws = .ofSeed ((o.seedAfter n).getD 0)) ∧
    (∀ (suite : Suite) (tasks : List Task) (seed : Nat) (s : Session FuzzerFactory κ),
      suite.ResolvesTo seed tasks →
        let done := performAll c tasks (suite, s)
        ∃ builds : List (Build (Fuzzer WordStream)),
          performAll c.recordingBuilds tasks (suite, s.withBuilds []) =
            (done.1, done.2.withBuilds builds) ∧
          done.2.solvers = { s.solvers with builds := s.solvers.builds + builds.length } ∧
          (∀ n (b : Build (Fuzzer WordStream)), builds[n]? = some b →
            b.answer = b.order.answerAfter s.solvers.constraints (s.solvers.builds + n) ∧
            b.order.seedAfter (s.solvers.builds + n) =
              some ((seed + (s.solvers.builds + n)) % Nat.pow 2 64)) ∧
          (builds.length ≤ Nat.pow 2 64 → ∀ m n (b b' : Build (Fuzzer WordStream)),
            builds[m]? = some b → builds[n]? = some b' → m ≠ n →
              b.order.seedAfter (s.solvers.builds + m) ≠
                b'.order.seedAfter (s.solvers.builds + n))) ∧
    ∀ (ctx : Context) (count : Nat) (t : ObservedTest) (precondition : Formula)
      (s : Session FuzzerFactory κ) (builds : List (Build (Fuzzer WordStream))),
      let raw := ctx.streamOrder t ctx.formula
      let constrained := ctx.streamOrder t (some (.constrain ctx.formula precondition))
      let n := s.solvers.builds
      let first := raw.builtAfter s.solvers.constraints n
      let second := constrained.builtAfter s.solvers.constraints (n + 1)
      let record :=
        ((s.withBuilds builds).measure c.recordingBuilds ctx count t precondition).2.solvers.2
      (((¬ ∃ samples, c.Streams ctx t count ctx.formula s.solvers samples) ∧
          record = builds ++ [first]) ∨
        (∃ samples, c.Streams ctx t count ctx.formula s.solvers samples) ∧
          record = builds ++ [first, second]) ∧
        constrained.seedAfter (n + 1) =
          (raw.seedAfter n).map fun seed => (seed + 1) % Nat.pow 2 64 := by
  intro c
  refine ⟨fun factory orders => Collaborators.buildAll_ofFactory learner orders factory,
    fun constraints n o f built => Order.seed_of_answerAfter built,
    fun suite tasks seed s resolves => ?_, fun ctx count t precondition s builds => ⟨?_, ?_⟩⟩
  · obtain ⟨builds, same, record⟩ := exists_record c resolves.wants s
    obtain ⟨counted, each⟩ := record.of_factory
    have seeded : ∀ n (b : Build (Fuzzer WordStream)), builds[n]? = some b →
        b.order.options.seed = some seed :=
      fun n b here => record.wanted b (List.mem_of_getElem? here)
    refine ⟨builds, same, counted, fun n b here => ⟨each n b here, ?_⟩,
      fun few m n b b' hm hn => ?_⟩
    · exact Order.seedAfter_of_seed (seeded n b here) _
    · have inside := (List.getElem?_eq_some_iff.1 hm).1
      have inside' := (List.getElem?_eq_some_iff.1 hn).1
      exact Order.seedAfter_ne (seeded m b hm) (seeded n b' hn)
        (Nat.lt_of_lt_of_le inside few) (Nat.lt_of_lt_of_le inside' few)
  · exact record_measure learner ctx count t precondition s builds
  · exact Order.seedAfter_succ rfl _

/-- A suite with the last of the seeds in its settings. -/
def lastSeedSuite : Suite where
  context :=
    { letterContext with
      settings := { numTries := 1, maxLearnerRetries := 1, solver.seed := some (Nat.pow 2 64 - 1) } }

/-- A session for fuzzers in which nothing has happened. -/
def lastSeedSession : Session FuzzerFactory (List LearnerCall) where
  world := .initial
  solvers := { constraints := .empty }
  learner := []

/-- A learner that names one formula. -/
def namingScript : LearnerScript where
  candidates := [⟨.atom "a", 1, 1⟩]

/-- A discovery and the two streams of a measurement: the seeds go on from 0. -/
theorem solvers_draw_apart_letters :
    lastSeedSuite.ResolvesTo (Nat.pow 2 64 - 1) [.learn, .measure 1] ∧
    (performAll (Collaborators.ofFactory namingScript.learner).recordingBuilds [.learn, .measure 1]
        (lastSeedSuite, lastSeedSession.withBuilds [])).2.solvers.2.mapIdx
          (fun n b => b.order.seedAfter n) = [some (Nat.pow 2 64 - 1), some 0, some 1] := by
  have resolves : lastSeedSuite.ResolvesTo (Nat.pow 2 64 - 1) [.learn, .measure 1] := by
    rintro t (mem | ⟨r, mem, -⟩ | mem)
    · obtain rfl := List.mem_singleton.1 mem
      rfl
    · cases mem
    · simp at mem
  obtain ⟨-, -, runs, -⟩ := solvers_draw_apart namingScript.learner
  obtain ⟨builds, same, counted, each, -⟩ := runs lastSeedSuite _ _ lastSeedSession resolves
  have three : (performAll (Collaborators.ofFactory namingScript.learner) [.learn, .measure 1]
      (lastSeedSuite, lastSeedSession)).2.solvers.builds = 3 := by decide +kernel
  refine ⟨resolves, ?_⟩
  rw [same]
  rw [counted] at three
  have counts : builds.length = 3 := by simpa [lastSeedSession] using three
  have seeds : builds.mapIdx (fun n b => b.order.seedAfter n) =
      (List.range 3).map fun n => some ((Nat.pow 2 64 - 1 + n) % Nat.pow 2 64) := by
    refine List.ext_getElem (by simp [counts]) fun n inside _ => ?_
    have here := (each n _ (List.getElem?_eq_getElem (by simpa using inside))).2
    simpa [lastSeedSession] using here
  exact seeds

end Suite

end PreconditionMining
