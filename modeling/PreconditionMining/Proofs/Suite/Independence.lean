/-
# Tests learn apart from one another

A suite learns for its tests one after another in one world of probes, and tests
may share probes.  Still no test has a part in what is learned for another one.  A
classification is refused by what is held, and resets what it reads; so its verdict
is the same in any two sessions that hold alike (`SameIn.verdict`), whatever has been
counted in them, and whichever other tests are registered.  With collaborators that
remember nothing from one task to the next (`Collaborators.Memoryless`) this is handed
on from the verdicts to a discovery (`discover_alike`), to a dialogue with the learner
(`learn_alike`), to an attempt (`attempt_alike`) and so to all that is learned for a
test (`learnTest_alike`).

The tests before leave held what was held.  So each test is learned for as if it
were the first one, up to a failure that it would have brought about as the first one too
(`learnTests_apart`).  `Suite.learning_isolated` says this of two suites.
-/

import PreconditionMining.Proofs.Suite.Completion
import PreconditionMining.Proofs.Suite.Requests

namespace PreconditionMining

/-- **A test gives the same verdict in worlds that hold alike,** whatever else is registered. -/
theorem ObservedTest.SameIn.verdict {register register' : List ObservedTest} {t t' : ObservedTest}
    (same : t.SameIn register register' t') (input : String) {v w : World}
    (alike : ∀ q, v.inFlight q = w.inFlight q) :
    (classify register t input v).verdict = (classify register' t' input w).verdict := by
  have answers := Condition.observe_fst_congr t.condition alike
  rcases atV : t.condition.observe v with ⟨e | o, v'⟩
  · rcases atW : t'.condition.observe w with ⟨answer, w'⟩
    rw [← same.condition, atW, same.condition, atV] at answers
    obtain rfl : .error e = answer := answers
    rw [classify_of_refused register t input atV, classify_of_refused register' t' input atW]
  · have free : t.Free v := (Condition.observe_isOk_iff t.condition v).1 ⟨o, by rw [atV]⟩
    exact same.verdict_of_free input free (free.congr fun q => (alike q).symm)

/-- **Collaborators remember nothing from one task to the next:** which solver is built depends on
the grammar, the formula and the options, and what a learner asks and answers on its request. -/
structure Collaborators.Memoryless {φ σ κ : Type} (c : Collaborators φ σ κ) : Prop where
  create : ∀ g formula options z z',
    (c.create g formula options z).1 = (c.create g formula options z').1
  learn : ∀ request k k',
    (c.learner.learn request k).map Prod.fst = (c.learner.learn request k').map Prod.fst

namespace Session

variable {φ σ κ : Type}

/-- The same probes are held in two sessions. -/
def HoldsAs (s s' : Session φ κ) : Prop := ∀ q, s.world.inFlight q = s'.world.inFlight q

theorem HoldsAs.after {s s' z z' : Session φ κ} (alike : s.HoldsAs s')
    (kept : ∀ q, z.world.inFlight q = s.world.inFlight q)
    (kept' : ∀ q, z'.world.inFlight q = s'.world.inFlight q) : z.HoldsAs z' :=
  fun q => ((kept q).trans (alike q)).trans (kept' q).symm

theorem HoldsAs.noteAll {s s' : Session φ κ} (alike : s.HoldsAs s') (es : List Event) :
    (s.noteAll es).HoldsAs (s'.noteAll es) := by
  have kept : ∀ z : Session φ κ, (z.noteAll es).world = z.world := fun z =>
    @noteAll_keeps _ _ (fun y => y.world = z.world) (fun _ _ same => same) z rfl es
  exact alike.after (fun q => by rw [kept]) fun q => by rw [kept]

variable {c : Collaborators φ σ κ} {ctx : Context} {register' : List ObservedTest}
  {t t' : ObservedTest} {s s' : Session φ κ}

/-- A sample is the same to a test in sessions that hold alike, and they go on to hold alike. -/
theorem classify_alike (same : t.SameIn ctx.register register' t') (alike : s.HoldsAs s')
    (sample : Tree) :
    (s.classify ctx t sample).1 =
        (s'.classify { ctx with register := register' } t' sample).1 ∧
      (s.classify ctx t sample).2.HoldsAs
        (s'.classify { ctx with register := register' } t' sample).2 :=
  ⟨same.verdict (ctx.input sample) alike,
    alike.after (inFlight_classify ctx t sample s) (inFlight_classify _ t' sample s')⟩

/-- Drawing and judging answer alike in sessions that hold alike. -/
theorem similar_sampler (c : Collaborators φ σ κ) (same : t.SameIn ctx.register register' t') :
    (sampler c ctx t).Similar (sampler c { ctx with register := register' } t')
      fun r r' => r.1 = r'.1 ∧ r.2.HoldsAs r'.2 where
  solve := by
    rintro ⟨q, s⟩ ⟨_, s'⟩ ⟨rfl, alike⟩
    exact ⟨rfl, rfl, alike.noteAll _⟩
  mutate := by
    rintro sample ⟨q, s⟩ ⟨_, s'⟩ ⟨rfl, alike⟩
    exact ⟨rfl, rfl, alike.noteAll _⟩
  classify := by
    rintro sample ⟨q, s⟩ ⟨_, s'⟩ ⟨rfl, alike⟩
    obtain ⟨verdict, later⟩ := classify_alike same alike sample
    exact ⟨verdict, rfl, later⟩
  note := by
    rintro e ⟨q, s⟩ ⟨_, s'⟩ ⟨rfl, alike⟩
    exact ⟨rfl, alike⟩

/-- What a discovery finds is what is found with the solver that is built for it. -/
theorem discover_fst (c : Collaborators φ σ κ) (ctx : Context) (t : ObservedTest)
    (s : Session φ κ) :
    (s.discover c ctx t).1 =
      match c.create ctx.grammar ctx.formula (ctx.solverOptions t) s.solvers with
      | (.error e, _) => .ok (.nothing (.ofSolver e))
      | (.ok q, solvers) => (Discovery.run (sampler c ctx t) ctx.settings
          (q, { s.note (.discovering t.name t.condition.description) with solvers })).1 := by
  rcases built : c.create ctx.grammar ctx.formula (ctx.solverOptions t) s.solvers
    with ⟨e | q, solvers⟩
  · simp only [discover, create, note, built]
  · rw [discover_of_built (q := q)]
    simp only [create, note, built]

/-- **A discovery finds the same in sessions that hold alike.** -/
theorem discover_alike (memoryless : c.Memoryless) (same : t.SameIn ctx.register register' t')
    (alike : s.HoldsAs s') :
    (s.discover c ctx t).1 = (s'.discover c { ctx with register := register' } t').1 := by
  have options : Context.solverOptions { ctx with register := register' } t' =
      ctx.solverOptions t := by
    rw [Context.solverOptions, Context.solverOptions, same.options]
  have builds :=
    memoryless.create ctx.grammar ctx.formula (ctx.solverOptions t) s.solvers s'.solvers
  rw [discover_fst, discover_fst, options]
  rcases built : c.create ctx.grammar ctx.formula (ctx.solverOptions t) s.solvers
    with ⟨e | q, solvers⟩
  all_goals
    rcases built' : c.create ctx.grammar ctx.formula (ctx.solverOptions t) s'.solvers
      with ⟨answer, solvers'⟩
    rw [built, built'] at builds
    obtain rfl := builds
  · rfl
  · have found := Discovery.run_similar (similar_sampler c same) ctx.settings
      (s := (q, { s.note (.discovering t.name t.condition.description) with solvers }))
      (t := (q, { s'.note (.discovering t'.name t'.condition.description) with
        solvers := solvers' })) ⟨rfl, alike⟩
    exact found.1

/-- **A dialogue comes to the same in sessions that hold alike,** with whatever is watched in it. -/
theorem run_alike {α : Type} (same : t.SameIn ctx.register register' t') :
    ∀ (d : Dialogue α) (s s' : Session φ κ), s.HoldsAs s' →
      (d.run (partner ctx t) s).1 =
        (d.run (partner { ctx with register := register' } t') s').1
  | .answer _, _, _, _ => rfl
  | .ask sample next, s, s', alike => by
    obtain ⟨verdict, later⟩ := classify_alike same alike sample
    rw [Dialogue.run, Dialogue.run]
    simp only [partner] at verdict ⊢
    rw [← verdict]
    exact run_alike same (next _) _ _ later
  | .watch condition next, s, s', alike => by
    have answers := Condition.observe_fst_congr condition alike
    have holds := Condition.inFlight_observe_congr condition alike
    rw [Dialogue.run, Dialogue.run]
    rcases observed : condition.observe s.world with ⟨e | o, w⟩
    all_goals
      rcases observed' : condition.observe s'.world with ⟨answer, w'⟩
      rw [observed, observed'] at answers holds
      obtain rfl := answers
      simp only [partner, observed, observed']
    · exact run_alike same (next (.error e)) { s with world := w } { s' with world := w' } holds
    · exact run_alike same (next (.ok ())) { s with world := w } { s' with world := w' } holds

/-- **What a learner names is the same in sessions that hold alike.** -/
theorem learn_alike (memoryless : c.Memoryless) (same : t.SameIn ctx.register register' t')
    (pools : Pools) (alike : s.HoldsAs s') :
    (s.learn c ctx t pools).1 =
      (s'.learn c { ctx with register := register' } t' pools).1 := by
  -- the answer of a learner is what its dialogue comes to without the learner's next state
  have answer : ∀ (ctx : Context) (u : ObservedTest) (z : Session φ κ),
      (z.learn c ctx u pools).1 = (((c.learner.learn
        ⟨ctx.grammar, pools, u.options.learner.getD {}⟩ z.learner).map Prod.fst).run
          (partner ctx u) z).1 := by
    intro ctx u z
    rw [Dialogue.run_map]
    rfl
  rw [answer, answer, same.options, memoryless.learn _ s.learner s'.learner]
  exact run_alike same _ s s' alike

end Session

namespace LearningRun

variable {φ σ κ : Type} {c : Collaborators φ σ κ} {ctx : Context} {register' : List ObservedTest}
  {r : LearningRun} {t' : ObservedTest} {s s' : Session φ κ}

theorem candidates_alike (memoryless : c.Memoryless)
    (same : r.test.SameIn ctx.register register' t') (alike : s.HoldsAs s') :
    (r.candidates c ctx s).1 =
      (candidates c { ctx with register := register' } { r with test := t' } s').1 := by
  have learned := Session.learn_alike memoryless same r.pools alike
  rw [candidates, candidates]
  rcases asked : s.learn c ctx r.test r.pools with ⟨(e | reason) | found, z⟩
  all_goals
    rcases asked' : s'.learn c { ctx with register := register' } t' r.pools with ⟨answer, z'⟩
    rw [asked, asked'] at learned
    obtain rfl := learned
    rfl

/-- **An attempt comes to the same in sessions that hold alike.** -/
theorem attempt_alike (memoryless : c.Memoryless)
    (same : r.test.SameIn ctx.register register' t') (alike : s.HoldsAs s') :
    (r.attempt c ctx s).1 =
        (attempt c { ctx with register := register' } { r with test := t' } s').1 ∧
      (attempt c { ctx with register := register' } { r with test := t' } s').2.1 =
        { (r.attempt c ctx s).2.1 with test := t' } := by
  have found := Session.discover_alike memoryless same alike
  have later := alike.after (Session.inFlight_discover c ctx r.test s)
    (Session.inFlight_discover c { ctx with register := register' } t' s')
  rw [attempt, attempt]
  rcases drawn : s.discover c ctx r.test with ⟨e | d, z⟩
  all_goals
    rcases drawn' : s'.discover c { ctx with register := register' } t' with ⟨answer, z'⟩
    rw [drawn, drawn'] at found later
    obtain rfl := found
  · exact ⟨rfl, rfl⟩
  · simp only
    have named := candidates_alike (r := { r with made := r.made + 1, pools := r.pools ++ d.pools })
      memoryless same later
    rcases asked : candidates c ctx { r with made := r.made + 1, pools := r.pools ++ d.pools } z
      with ⟨e | candidates, y⟩
    all_goals
      rcases asked' : LearningRun.candidates c { ctx with register := register' }
        { test := t', maxRetries := r.maxRetries, pools := r.pools ++ d.pools, made := r.made + 1,
          finished := r.finished } z' with ⟨answer, y'⟩
      rw [asked, asked'] at named
      obtain rfl := named
      exact ⟨rfl, rfl⟩

/-- **The items of a run are the same in sessions that hold alike.** -/
theorem takeItems_alike (memoryless : c.Memoryless) (n : Nat)
    (same : r.test.SameIn ctx.register register' t') (alike : s.HoldsAs s') :
    (takeItems c ctx n r s).1 =
      (takeItems c { ctx with register := register' } n { r with test := t' } s').1 := by
  induction n generalizing r s s' with
  | zero => rfl
  | succ n ih =>
    rw [takeItems, takeItems]
    by_cases ended : r.Ended
    · rw [next_of_ended ended, next_of_ended (r := { r with test := t' }) ended]
    · rw [next_of_not_ended ended, next_of_not_ended (r := { r with test := t' }) ended]
      obtain ⟨items, runs⟩ := attempt_alike memoryless same alike
      have later := alike.after (inFlight_attempt c ctx r s)
        (inFlight_attempt c { ctx with register := register' } { r with test := t' } s')
      have own := (attempt_counts c ctx r s).1
      rcases made : r.attempt c ctx s with ⟨item, after, z⟩
      rcases made' : attempt c { ctx with register := register' } { r with test := t' } s'
        with ⟨item', after', z'⟩
      rw [made, made'] at items runs later
      rw [made] at own
      obtain rfl := items
      obtain rfl := runs
      simp only at own later ⊢
      rw [← own] at same
      rw [ih (r := { after with finished := ends item }) same later]

end LearningRun

/-- What is stored for a test whose last attempt had a number and found candidates. -/
def TestResult.ofLast (t : ObservedTest) (last : Nat × List Candidate) : TestResult :=
  ⟨t, last.2.map (·.formula), last.1⟩

namespace Session

variable {φ σ κ : Type} {c : Collaborators φ σ κ} {ctx : Context} {register' : List ObservedTest}
  {t t' : ObservedTest} {s s' : Session φ κ}

theorem inFlight_learnTest (c : Collaborators φ σ κ) (ctx : Context) (t : ObservedTest)
    (s : Session φ κ) (q : Probe) : (s.learnTest c ctx t).2.world.inFlight q = s.world.inFlight q :=
  learnTest_keeps (LearningRun.keeps_inFlight c ctx t s.world) rfl (fun _ => rfl) q

/-- What is learned for a test is what the last attempt of its run found. -/
theorem learnTest_fst (c : Collaborators φ σ κ) (ctx : Context) (t : ObservedTest)
    (s : Session φ κ) :
    (s.learnTest c ctx t).1 =
      (lastAttempt ((LearningRun.start ctx t).items c ctx
        ((s.note (.enteringTest t.name t.condition.description)).note .learning)).1 (0, [])).map
          (.ofLast t) := by
  rw [learnTest]
  generalize (LearningRun.start ctx t).items c ctx _ = run
  obtain ⟨items, r, z⟩ := run
  simp only
  rcases lastAttempt items (0, []) with e | ⟨attempts, found⟩ <;> rfl

/-- **What is learned for a test is the same in sessions that hold alike,** whichever other tests
are registered. -/
theorem learnTest_alike (memoryless : c.Memoryless) (same : t.SameIn ctx.register register' t')
    (alike : s.HoldsAs s') :
    ∃ last : Except ConditionError (Nat × List Candidate),
      (s.learnTest c ctx t).1 = last.map (.ofLast t) ∧
      (s'.learnTest c { ctx with register := register' } t').1 = last.map (.ofLast t') := by
  refine ⟨_, learnTest_fst c ctx t s, ?_⟩
  have entered : ((s.note (.enteringTest t.name t.condition.description)).note .learning).HoldsAs
      ((s'.note (.enteringTest t'.name t'.condition.description)).note .learning) := alike
  have items := LearningRun.takeItems_alike (r := .start ctx t) memoryless
    ctx.settings.maxLearnerRetries same entered
  rw [learnTest_fst, LearningRun.items, LearningRun.items]
  simp only [LearningRun.start, Nat.sub_zero] at items ⊢
  rw [items]

/-- A test whose triggers depend on its input alone is learned for as it would be in any other
session that holds alike. -/
theorem learnTest_again (memoryless : c.Memoryless) (byInput : t.TriggersByInput ctx.register)
    (alike : s.HoldsAs s') : (s.learnTest c ctx t).1 = (s'.learnTest c ctx t).1 := by
  obtain ⟨last, here, there⟩ :=
    learnTest_alike memoryless (ObservedTest.sameIn_self.2 byInput) alike
  exact here.trans there.symm

/-- **Tests are learned for as if each were the first one:** the results are those that each test
has in a session that holds as the one at the start, and they are the results of all tests, or of
those before one for which learning fails in that session too. -/
theorem learnTests_apart (memoryless : c.Memoryless) {ts : List ObservedTest}
    (byInput : ∀ t ∈ ts, t.TriggersByInput ctx.register) {start : Session φ κ}
    (alike : s.HoldsAs start) :
    (∀ result ∈ (learnTests c ctx ts s).1,
      (start.learnTest c ctx result.test).1 = .ok result) ∧
    ((learnTests c ctx ts s).2.1 = none ∧ (learnTests c ctx ts s).1.map (·.test) = ts ∨
      ∃ before t after e, ts = before ++ t :: after ∧
        (start.learnTest c ctx t).1 = .error e ∧ (learnTests c ctx ts s).2.1 = some e ∧
        (learnTests c ctx ts s).1.map (·.test) = before) := by
  induction ts generalizing s with
  | nil => exact ⟨fun result mem => absurd mem List.not_mem_nil, .inl ⟨rfl, rfl⟩⟩
  | cons t ts ih =>
    obtain ⟨first, others⟩ := List.forall_mem_cons.1 byInput
    have again := learnTest_again memoryless first alike
    have kept := inFlight_learnTest c ctx t s
    rw [learnTests]
    rcases learned : s.learnTest c ctx t with ⟨e | result, s'⟩ <;> rw [learned] at again kept
    · exact ⟨fun result mem => absurd mem List.not_mem_nil,
        .inr ⟨[], t, ts, e, rfl, again.symm, rfl, rfl⟩⟩
    · have own : result.test = t := test_of_learnTest again.symm
      obtain ⟨each, all⟩ := ih others (alike.after kept fun _ => rfl)
      refine ⟨List.forall_mem_cons.2 ⟨by rw [own]; exact again.symm, each⟩, ?_⟩
      rcases all with ⟨smooth, tied⟩ | ⟨before, u, after, e, rfl, fails, failed, tied⟩
      · exact .inl ⟨smooth, by rw [List.map_cons, own, tied]⟩
      · refine .inr ⟨t :: before, u, after, e, rfl, fails, failed, ?_⟩
        rw [List.map_cons, own, tied]

end Session

namespace Suite

variable {φ σ κ : Type} {c : Collaborators φ σ κ} {suite : Suite} {s : Session φ κ}

/-- Learning stores what was learned for the tests before a failure, and tells of the failure. -/
theorem learnPreconditions_of_retries (c : Collaborators φ σ κ) (s : Session φ κ)
    (retries : suite.context.settings.maxLearnerRetries ≠ 0) :
    let learned := Session.learnTests c suite.context suite.tests
      (s.note (.learningSuite suite.tests.length))
    (suite.learnPreconditions c s).2.1.results = learned.1 ∧
      (suite.learnPreconditions c s).1 = match learned.2.1 with
        | none => .ok learned.1
        | some e => .error (.condition e) := by
  rw [learnPreconditions, if_neg retries]
  rcases Session.learnTests c suite.context suite.tests
    (s.note (.learningSuite suite.tests.length)) with ⟨results, e | _, z⟩ <;> exact ⟨rfl, rfl⟩

/-- **A suite stores for each test what is learned for it from the start,** for all of its tests, or
for those before one for which learning fails from the start. -/
structure LearnsApart (c : Collaborators φ σ κ) (suite : Suite) (s : Session φ κ) : Prop where
  each : ∀ result ∈ (suite.learnPreconditions c s).2.1.results,
    (s.learnTest c suite.context result.test).1 = .ok result
  all : let out := suite.learnPreconditions c s
    out.1 = .ok out.2.1.results ∧ out.2.1.results.map (·.test) = suite.tests ∨
      ∃ before t after e, suite.tests = before ++ t :: after ∧
        (s.learnTest c suite.context t).1 = .error e ∧ out.1 = .error (.condition e) ∧
        out.2.1.results.map (·.test) = before

theorem learnsApart (memoryless : c.Memoryless)
    (retries : suite.context.settings.maxLearnerRetries ≠ 0)
    (byInput : ∀ t ∈ suite.tests, t.TriggersByInput suite.context.register) :
    suite.LearnsApart c s := by
  have entered : (s.note (.learningSuite suite.tests.length)).HoldsAs s := fun _ => rfl
  obtain ⟨each, all⟩ := Session.learnTests_apart memoryless byInput entered
  obtain ⟨stored, told⟩ := learnPreconditions_of_retries c s retries
  refine ⟨by rwa [stored], ?_⟩
  dsimp only
  rw [stored, told]
  rcases all with ⟨smooth, tied⟩ | ⟨before, t, after, e, split, fails, failed, tied⟩
  · exact .inl ⟨by rw [smooth], tied⟩
  · exact .inr ⟨before, t, after, e, split, fails, by rw [failed], tied⟩

/-- **Tests learn apart from one another.**  Let the collaborators remember nothing from one task to
the next, the triggers of each test depend on its input alone, and no probe be held.  Where no
attempt is allowed, nothing changes.  Otherwise a suite stores for each test what is learned for it
from the start, and it does so for all tests if the learner blames the oracle only when the oracle
failed and asks unheld.  Whichever tests another suite for the same task has, in whatever order, and
whatever was counted, built and learned before: if no probe is held when that suite learns, then the
preconditions and the number of attempts that both suites store for the same test are the same, and
learning for it alone fails in both or in none. -/
theorem learning_isolated {φ σ κ : Type} (c : Collaborators φ σ κ) (memoryless : c.Memoryless)
    (suite : Suite) (s : Session φ κ)
    (byInput : ∀ t ∈ suite.tests, t.TriggersByInput suite.context.register)
    (unheld : ∀ q, s.world.inFlight q = false) :
    let stored := (suite.learnPreconditions c s).2.1.results
    (suite.context.settings.maxLearnerRetries = 0 →
      (suite.learnPreconditions c s).2.1 = suite) ∧
    (suite.context.settings.maxLearnerRetries ≠ 0 →
      suite.LearnsApart c s ∧
      (c.BlamesOracle suite.context → c.AsksUnheld suite.context →
        stored.map (·.test) = suite.tests) ∧
      ∀ (suite' : Suite) (s' : Session φ κ),
        suite'.context = { suite.context with register := suite'.context.register } →
        (∀ t ∈ suite'.tests, t.TriggersByInput suite'.context.register) →
        (∀ q, s'.world.inFlight q = false) →
        ∀ t t', t.SameIn suite.context.register suite'.context.register t' →
          (∀ result ∈ stored, result.test = t →
            ∀ result' ∈ (suite'.learnPreconditions c s').2.1.results, result'.test = t' →
              result'.preconditions = result.preconditions ∧
                result'.attempts = result.attempts) ∧
          ∀ e, (s'.learnTest c suite'.context t').1 = .error e ↔
            (s.learnTest c suite.context t).1 = .error e) := by
  intro stored
  refine ⟨fun none => by rw [learnPreconditions, if_pos none], fun retries => ?_⟩
  refine ⟨learnsApart memoryless retries byInput, fun blames asks => ?_, ?_⟩
  · obtain ⟨results, z, learned, tied, -⟩ := Session.learnTests_of_free blames asks
      (Nat.one_le_iff_ne_zero.2 retries) suite.tests (fun _ mem => mem)
      (s := s.note (.learningSuite suite.tests.length)) fun _ _ q _ => unheld q
    show (suite.learnPreconditions c s).2.1.results.map _ = _
    rw [(learnPreconditions_of_retries c s retries).1, learned, tied]
  · intro suite' s' task byInput' unheld' t t' same
    have alike : s.HoldsAs s' := fun q => (unheld q).trans (unheld' q).symm
    obtain ⟨last, here, there⟩ := Session.learnTest_alike memoryless same alike
    rw [← task] at there
    refine ⟨?_, fun e => by rw [here, there]; cases last <;> simp [Except.map]⟩
    rintro result mem rfl result' mem' rfl
    have retries' : suite'.context.settings.maxLearnerRetries ≠ 0 := by rw [task]; exact retries
    rw [(learnsApart memoryless retries byInput).each result mem] at here
    rw [(learnsApart memoryless retries' byInput').each result' mem'] at there
    cases last with
    | error e => cases here
    | ok last =>
      rw [Except.ok.inj here, Except.ok.inj there]
      exact ⟨rfl, rfl⟩

end Suite

/-- What is made of the answer, where questions about several samples come before it. -/
theorem Dialogue.map_askAll {α β : Type} (f : α → β)
    (next : Except ConditionError Nat → Dialogue α) (samples : List Tree) (confirmed : Nat) :
    (askAll samples confirmed next).map f = askAll samples confirmed fun n => (next n).map f := by
  induction samples generalizing confirmed with
  | nil => rfl
  | cons sample rest ih =>
    rw [askAll, askAll, map]
    congr 1
    funext verdict
    rcases verdict with e | triggered
    · rfl
    · exact ih _

/-- A learner that has the oracle confirm the positive samples, names each of them, and counts its
calls. -/
def namingLearner : Learner Nat where
  learn request calls := Dialogue.askAll request.pools.positive 0 fun
    | .error e => .answer (.error (.oracle e), calls + 1)
    | .ok _ =>
      .answer (.ok (request.pools.positive.map fun sample => ⟨.atom sample.render, 1, 1⟩),
        calls + 1)

/-- A test that triggers for the letter b the probe that the other test triggers for a. -/
def isLetterB : ObservedTest where
  id := 1
  name := "other letter"
  condition := .leaf ⟨0, "is a"⟩
  body input := if input = "b" then .trigger ⟨0, "is a"⟩ 1 .done else .done

/-- A suite with the two tests that share a probe. -/
def sharingSuite : Suite where
  context := { letterContext with register := [isLetterA, isLetterB] }

/-- The two tests, registered the other way round. -/
def reversedSuite : Suite where
  context := { letterContext with
    register := [{ isLetterB with id := 0 }, { isLetterA with id := 1 }] }

/-- A session in which the shared probe has been triggered and the learner has been called. -/
def busySession : Session Unit Nat where
  world := ⟨[⟨7, false⟩]⟩
  solvers := ()
  learner := 3

/-- A letter is learned as it is for the first of two tests in a new session, when its test is the
second one in a session in which the probe has been triggered. -/
theorem Suite.learning_isolated_letters :
    (letterSource namingLearner).Memoryless ∧
    (∀ t ∈ sharingSuite.tests, t.TriggersByInput sharingSuite.context.register) ∧
    (∀ q, World.initial.inFlight q = false) ∧ (∀ q, busySession.world.inFlight q = false) ∧
    ∃ result ∈ (sharingSuite.learnPreconditions (letterSource namingLearner)
        ⟨.initial, (), 0, #[], #[]⟩).2.1.results,
      ∃ result' ∈ (reversedSuite.learnPreconditions (letterSource namingLearner)
          busySession).2.1.results,
        result.test = isLetterA ∧ result'.test = { isLetterA with id := 1 } ∧
          result.preconditions = [.atom "a"] ∧ result.attempts = 1 ∧
          result'.preconditions = result.preconditions ∧ result'.attempts = result.attempts := by
  have memoryless : (letterSource namingLearner).Memoryless := by
    refine ⟨fun _ _ _ _ _ => rfl, fun request k k' => ?_⟩
    show (Dialogue.askAll _ _ _).map _ = (Dialogue.askAll _ _ _).map _
    rw [Dialogue.map_askAll, Dialogue.map_askAll]
    congr 1
    funext count
    cases count <;> rfl
  have plainA : ∀ input, (isLetterA.body input).Plain := fun input => by
    by_cases a : input = "a" <;> simp [isLetterA, a, Script.Plain]
  have plainB : ∀ input, (isLetterB.body input).Plain := fun input => by
    by_cases b : input = "b" <;> simp [isLetterB, b, Script.Plain]
  have byInput : ∀ t ∈ sharingSuite.tests, t.TriggersByInput sharingSuite.context.register :=
    List.forall_mem_cons.2 ⟨ObservedTest.triggersByInput_of_plain _ plainA,
      List.forall_mem_singleton.2 (ObservedTest.triggersByInput_of_plain _ plainB)⟩
  have byInput' : ∀ t ∈ reversedSuite.tests, t.TriggersByInput reversedSuite.context.register :=
    List.forall_mem_cons.2 ⟨ObservedTest.triggersByInput_of_plain _ plainB,
      List.forall_mem_singleton.2 (ObservedTest.triggersByInput_of_plain _ plainA)⟩
  have unheld : ∀ q, World.initial.inFlight q = false := fun _ => rfl
  have unheld' : ∀ q, busySession.world.inFlight q = false := by
    rintro ⟨n, text⟩
    cases n <;> rfl
  have stored : (sharingSuite.learnPreconditions (letterSource namingLearner)
      ⟨.initial, (), 0, #[], #[]⟩).2.1.results =
        [⟨isLetterA, [.atom "a"], 1⟩, ⟨isLetterB, [.atom "b"], 1⟩] := rfl
  have stored' : (reversedSuite.learnPreconditions (letterSource namingLearner)
      busySession).2.1.results =
        [⟨{ isLetterB with id := 0 }, [.atom "b"], 1⟩,
          ⟨{ isLetterA with id := 1 }, [.atom "a"], 1⟩] := rfl
  obtain ⟨-, learned⟩ := learning_isolated (letterSource namingLearner) memoryless sharingSuite
    ⟨.initial, (), 0, #[], #[]⟩ byInput unheld
  obtain ⟨-, -, same⟩ := learned (by decide)
  refine ⟨memoryless, byInput, unheld, unheld', ⟨isLetterA, [.atom "a"], 1⟩, ?_,
    ⟨{ isLetterA with id := 1 }, [.atom "a"], 1⟩, ?_, rfl, rfl, rfl, rfl, ?_⟩
  · rw [stored]
    exact List.mem_cons_self
  · rw [stored']
    exact List.mem_cons_of_mem _ List.mem_cons_self
  · have sameA : isLetterA.SameIn sharingSuite.context.register reversedSuite.context.register
        { isLetterA with id := 1 } := ObservedTest.sameIn_of_plain plainA rfl rfl rfl
    exact (same reversedSuite busySession rfl byInput' unheld' _ _ sameA).1
      _ (stored ▸ List.mem_cons_self) rfl
      _ (stored' ▸ List.mem_cons_of_mem _ List.mem_cons_self) rfl

end PreconditionMining
