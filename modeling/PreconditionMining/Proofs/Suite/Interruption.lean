/-
# Learning is interrupted by a misuse

A misuse of conditions ends the learning of a suite at once, and what it leaves
behind can be told for each place at which it may arise.  In an attempt there are
two of them (`LearningRun.Misuse`): a classification of the discovery is refused,
or the learner reports that its oracle was.  A run breaks off with a misuse in any
of the attempts that it comes to (`LearningRun.BreaksOff`), and a suite with one
for any of its tests.

Each level has its own account of when and with what it fails
(`attempt_eq_error_iff`, `learnTest_eq_error_iff`, `learnTests_eq_error_iff`), and
`learning_interrupted` puts them together.  The results of the tests before are
those that learning for these tests alone would give, the session is the one in
which the misuse arose, and what is held is held as before.

That a learner reports what its oracle refused is up to the learner.  Scripted
learners do, also when they watch a condition (`passesOn_script`,
`passesOn_watching`).
-/

import PreconditionMining.Proofs.Suite.Calls
import PreconditionMining.Proofs.Suite.Completion

namespace PreconditionMining

namespace LearningRun

variable {φ σ κ : Type} {c : Collaborators φ σ κ} {ctx : Context}

/-- **How a misuse arises in the next attempt of a run,** and the session in which it does. -/
inductive Misuse (c : Collaborators φ σ κ) (ctx : Context) (r : LearningRun) (s : Session φ κ)
    (e : ConditionError) : Session φ κ → Prop
  /-- A classification of the discovery is refused. -/
  | discovering {sample : Tree} {s' : Session φ κ}
      (refused : .judged sample (.error e) ∈ s.calls c ctx r.test)
      (after : (s.discover c ctx r.test).2 = s') : Misuse c ctx r s e s'
  /-- The discovery succeeds, and the learner reports a misuse by its oracle. -/
  | learning {d : Discovery} {s₁ s' : Session φ κ}
      (discovered : s.discover c ctx r.test = (.ok d, s₁))
      (reported : s₁.learn c ctx r.test (r.pools ++ d.pools) = (.error (.oracle e), s')) :
      Misuse c ctx r s e s'

/-- **How a run breaks off with a misuse:** it arises in the next attempt, or in a later one, after
those before it had no candidates. -/
inductive BreaksOff (c : Collaborators φ σ κ) (ctx : Context) :
    LearningRun → Session φ κ → ConditionError → Session φ κ → Prop
  | now {r : LearningRun} {s s' : Session φ κ} {e : ConditionError}
      (left : r.made < r.maxRetries) (misuse : r.Misuse c ctx s e s') : BreaksOff c ctx r s e s'
  | later {r r' : LearningRun} {s s₁ s' : Session φ κ} {a : Attempt} {e : ConditionError}
      (left : r.made < r.maxRetries) (made : r.attempt c ctx s = (.ok a, r', s₁))
      (nothing : a.candidates = []) (rest : BreaksOff c ctx { r' with finished := false } s₁ e s') :
      BreaksOff c ctx r s e s'

/-- Asking for candidates fails with what the learner reports of its oracle. -/
theorem candidates_eq_error_iff {r : LearningRun} {s s' : Session φ κ} {e : ConditionError} :
    r.candidates c ctx s = (.error e, s') ↔
      s.learn c ctx r.test r.pools = (.error (.oracle e), s') := by
  rw [candidates]
  rcases s.learn c ctx r.test r.pools with ⟨(e' | reason) | found, s''⟩ <;> simp

/-- **An attempt fails with a misuse that arises in it,** and with nothing else. -/
theorem attempt_eq_error_iff {r : LearningRun} {s s' : Session φ κ} {e : ConditionError} :
    (∃ r', r.attempt c ctx s = (.error e, r', s')) ↔ r.Misuse c ctx s e s' := by
  constructor
  · rintro ⟨r', failed⟩
    rw [attempt] at failed
    rcases discovered : s.discover c ctx r.test with ⟨e' | d, s₁⟩ <;>
      simp only [discovered] at failed
    · cases failed
      obtain ⟨sample, refused⟩ := Session.discover_eq_error_iff.1 (congrArg Prod.fst discovered)
      exact .discovering refused (congrArg Prod.snd discovered)
    · rcases asked : candidates c ctx { r with made := r.made + 1, pools := r.pools ++ d.pools } s₁
        with ⟨e' | found, s₂⟩ <;> simp only [asked] at failed
      · cases failed
        exact .learning discovered (candidates_eq_error_iff.1 asked)
      · cases failed
  · intro misuse
    cases misuse with
    | discovering refused after =>
      have failed := Session.discover_eq_error_iff.2 ⟨_, refused⟩
      rw [attempt]
      rcases discovered : s.discover c ctx r.test with ⟨e' | d, s₁⟩ <;>
        rw [discovered] at failed after <;> cases failed
      subst after
      exact ⟨_, rfl⟩
    | @learning d s₁ _ discovered reported =>
      have asked : candidates c ctx { r with made := r.made + 1, pools := r.pools ++ d.pools } s₁ =
          (.error e, s') := candidates_eq_error_iff.2 reported
      rw [attempt]
      simp only [discovered, asked]
      exact ⟨_, rfl⟩

/-- **A run that is followed to its end fails when and only when it breaks off with a misuse.** -/
theorem Course.lastAttempt_eq_error_iff {r r' : LearningRun} {s z s' : Session φ κ}
    {items : List (Except ConditionError Attempt)} (h : Course c ctx r s items r' z)
    (before : Nat × List Candidate) {e : ConditionError} :
    (Session.lastAttempt items before = .error e ∧ z = s') ↔ r.BreaksOff c ctx s e s' := by
  constructor
  · rintro ⟨failed, rfl⟩
    induction h generalizing before with
    | spent used => cases failed
    | @ended r r' s s' item left made final =>
      cases item with
      | ok a => cases failed
      | error e' =>
        cases failed
        exact .now left (attempt_eq_error_iff.1 ⟨r', made⟩)
    | @goesOn r r' r'' s s' s'' item items left made unfinished rest ih =>
      cases item with
      | error e' => cases unfinished
      | ok a =>
        have nothing : a.candidates = [] := by simpa [ends] using unfinished
        exact .later left made nothing (ih _ failed)
  · intro breaks
    induction breaks generalizing items r' before with
    | @now r s s' e left misuse =>
      obtain ⟨r₁, failed⟩ := attempt_eq_error_iff.2 misuse
      cases h with
      | spent used => exact absurd left (Nat.not_lt.2 used)
      | ended _ made final =>
        rw [failed] at made
        cases made
        exact ⟨rfl, rfl⟩
      | goesOn _ made unfinished =>
        rw [failed] at made
        cases made
        cases unfinished
    | @later r r₁ s s₁ s' a e left made nothing rest ih =>
      cases h with
      | spent used => exact absurd left (Nat.not_lt.2 used)
      | ended _ made' final =>
        rw [made] at made'
        cases made'
        rw [ends, nothing] at final
        cases final
      | goesOn _ made' unfinished rest' =>
        rw [made] at made'
        cases made'
        exact ih rest' _

end LearningRun

namespace Session

open LearningRun Dialogue

variable {φ σ κ : Type} {c : Collaborators φ σ κ} {ctx : Context}

/-- **The learning for a test fails when and only when its run breaks off with a misuse.** -/
theorem learnTest_eq_error_iff {t : ObservedTest} {s s' : Session φ κ} {e : ConditionError} :
    s.learnTest c ctx t = (.error e, s') ↔
      (start ctx t).BreaksOff c ctx
        ((s.note (.enteringTest t.name t.condition.description)).note .learning) e s' := by
  obtain ⟨items, r, z, course, same⟩ := learnTest_eq c ctx t s
  rw [← course.lastAttempt_eq_error_iff (0, []), same]
  rcases lastAttempt items (0, []) with e' | ⟨attempts, learned⟩ <;> simp

/-- Learning for a test and then for others succeeds step by step. -/
theorem learnTests_cons_eq_none_iff {t : ObservedTest} {ts : List ObservedTest}
    {s s' : Session φ κ} {results : List TestResult} :
    learnTests c ctx (t :: ts) s = (results, none, s') ↔
      ∃ result s₁ later, s.learnTest c ctx t = (.ok result, s₁) ∧
        learnTests c ctx ts s₁ = (later, none, s') ∧ results = result :: later := by
  rw [learnTests]
  rcases here : s.learnTest c ctx t with ⟨e | result, s₁⟩
  · simp
  · rcases there : learnTests c ctx ts s₁ with ⟨later, failure, s₂⟩
    constructor
    · intro learned
      simp only [there] at learned
      cases learned
      exact ⟨result, s₁, later, rfl, there, rfl⟩
    · rintro ⟨_, _, later', ⟨⟩, rest, rfl⟩
      rw [there] at rest
      cases rest
      simp only [there]

/-- **Learning for tests that all succeed gives a result for each of them,** in order. -/
theorem tests_of_learnTests {ts : List ObservedTest} {s s' : Session φ κ}
    {results : List TestResult} (learned : learnTests c ctx ts s = (results, none, s')) :
    results.map (·.test) = ts := by
  induction ts generalizing s results with
  | nil =>
    cases learned
    rfl
  | cons t ts ih =>
    obtain ⟨result, s₁, later, here, there, rfl⟩ := learnTests_cons_eq_none_iff.1 learned
    rw [List.map_cons, test_of_learnTest (congrArg Prod.fst here), ih there]

/-- **The learning for several tests fails with the first of them that fails.**  Its results are
those of learning for the tests before that one alone. -/
theorem learnTests_eq_error_iff {ts : List ObservedTest} {s s' : Session φ κ}
    {results : List TestResult} {e : ConditionError} :
    learnTests c ctx ts s = (results, some e, s') ↔
      ∃ front t back s₁, ts = front ++ t :: back ∧ learnTests c ctx front s = (results, none, s₁) ∧
        s₁.learnTest c ctx t = (.error e, s') := by
  induction ts generalizing s results with
  | nil => simp [learnTests]
  | cons t ts ih =>
    constructor
    · intro failed
      rw [learnTests] at failed
      rcases here : s.learnTest c ctx t with ⟨e' | result, s₁⟩ <;> simp only [here] at failed
      · cases failed
        exact ⟨[], t, ts, s, rfl, rfl, here⟩
      · rcases there : learnTests c ctx ts s₁ with ⟨later, failure, s₂⟩
        rw [there] at failed
        cases failed
        obtain ⟨front, u, back, s₃, rfl, before, failing⟩ := ih.1 there
        exact ⟨t :: front, u, back, s₃, rfl,
          learnTests_cons_eq_none_iff.2 ⟨result, s₁, later, here, before, rfl⟩, failing⟩
    · rintro ⟨front, u, back, s₁, split, before, failing⟩
      cases front with
      | nil =>
        cases before
        cases split
        rw [learnTests, failing]
      | cons t' front =>
        cases split
        obtain ⟨result, s₂, later, here, there, rfl⟩ := learnTests_cons_eq_none_iff.1 before
        have rest := ih.2 ⟨front, u, back, s₁, rfl, there, failing⟩
        rw [learnTests, here]
        simp only [rest]

/-- **Learning for several tests leaves held what was held.** -/
theorem inFlight_learnTests (c : Collaborators φ σ κ) (ctx : Context) (ts : List ObservedTest)
    (s : Session φ κ) (q : Probe) :
    (learnTests c ctx ts s).2.2.world.inFlight q = s.world.inFlight q :=
  learnTests_keeps (fun z => ∀ q, z.world.inFlight q = s.world.inFlight q)
    (fun t _ => ⟨fun r => r.test = t, keeps_inFlight c ctx t s.world, rfl⟩) (fun _ => rfl) q

end Session

namespace Collaborators

open Dialogue

variable {φ σ κ : Type}

/-- **The learner passes on what its oracle refuses:** a refusal among the answers that it is given is
what it reports. -/
def PassesOn (c : Collaborators φ σ κ) (ctx : Context) : Prop :=
  ∀ (t : ObservedTest) (pools : Pools) (s : Session φ κ) (sample : Tree) (e : ConditionError),
    .asked sample (.error e) ∈ s.exchanges c ctx t pools →
      (s.learn c ctx t pools).1 = .error (.oracle e)

end Collaborators

section Scripted

open Dialogue

variable {φ σ κ : Type}

/-- Questions about several samples end with the first that is refused. -/
theorem Dialogue.run_askAll_of_refused {α ς : Type} {partner : Partner ς}
    {next : Except ConditionError Nat → Dialogue α}
    (silent : ∀ r s, (next r).exchanges partner s = []) {sample : Tree} {e : ConditionError}
    {samples : List Tree} {confirmed : Nat} {s : ς}
    (refused : .asked sample (.error e) ∈ (askAll samples confirmed next).exchanges partner s) :
    ∃ s', (askAll samples confirmed next).run partner s = (next (.error e)).run partner s' := by
  induction samples generalizing confirmed s with
  | nil =>
    rw [askAll, silent] at refused
    cases refused
  | cons first rest ih =>
    rw [askAll, exchanges] at refused
    rw [askAll, run]
    rcases asked : partner.ask first s with ⟨e' | triggered, s'⟩ <;>
      simp only [asked] at refused ⊢
    · rw [silent, List.mem_singleton] at refused
      cases refused
      exact ⟨s', rfl⟩
    · rcases List.mem_cons.1 refused with here | there
      · cases here
      · exact ih there

/-- **A scripted learner passes on what its oracle refuses.** -/
theorem Collaborators.passesOn_script (c : Collaborators φ σ κ) (ctx : Context)
    (script : LearnerScript) : (c.withLearner script.learner).PassesOn ctx := by
  intro t pools s sample e refused
  rw [Session.exchanges] at refused
  rw [Session.learn]
  by_cases checks : script.checksOracle = true
  · simp only [withLearner, LearnerScript.learner, checks, if_true] at refused ⊢
    obtain ⟨s', same⟩ := run_askAll_of_refused (fun r _ => by cases r <;> rfl) refused
    rw [same]
    rfl
  · simp only [withLearner, LearnerScript.learner, checks] at refused
    cases refused

/-- A learner that watches a condition, and then does as its script says, does so too. -/
theorem Collaborators.passesOn_watching (c : Collaborators φ σ κ) (ctx : Context)
    (condition : Condition) {script : LearnerScript} (quiet : script.checksOracle = false) :
    (c.withLearner (.watching condition script.learner)).PassesOn ctx := by
  intro t pools s sample e refused
  rw [Session.exchanges] at refused
  rw [Session.learn]
  rcases observed : (Session.partner ctx t).observe condition s with ⟨e' | o, s₁⟩ <;>
    simp only [withLearner, Learner.watching, Dialogue.run, Dialogue.exchanges, observed,
      LearnerScript.learner, quiet] at refused ⊢
  · cases List.mem_singleton.1 refused
  · rcases List.mem_cons.1 refused with here | there
    · cases here
    · obtain ⟨s', same⟩ := run_askAll_of_refused (fun r _ => by cases r <;> rfl) there
      rw [same]
      rfl

end Scripted

namespace Suite

variable {φ σ κ : Type} {c : Collaborators φ σ κ} {suite : Suite} {s : Session φ κ}

/-- Where attempts are allowed, a suite fails with a misuse as the learning for its tests does, and
has the results from before it. -/
theorem learnPreconditions_eq_error_iff (allowed : 0 < suite.context.settings.maxLearnerRetries)
    {e : ConditionError} {suite' : Suite} {s' : Session φ κ} :
    suite.learnPreconditions c s = (.error (.condition e), suite', s') ↔
      ∃ results, Session.learnTests c suite.context suite.tests
        (s.note (.learningSuite suite.tests.length)) = (results, some e, s') ∧
          suite' = { suite with results } := by
  rw [learnPreconditions, if_neg (Nat.ne_of_gt allowed)]
  rcases learned : Session.learnTests c suite.context suite.tests
    (s.note (.learningSuite suite.tests.length)) with ⟨results, _ | e', z⟩
  · simp
  · constructor
    · intro failed
      cases failed
      exact ⟨results, rfl, rfl⟩
    · rintro ⟨_, ⟨⟩, rfl⟩
      rfl

/-- **Learning for a suite leaves held what was held.** -/
theorem inFlight_learnPreconditions (c : Collaborators φ σ κ) (suite : Suite) (s : Session φ κ)
    (q : Probe) : (suite.learnPreconditions c s).2.2.world.inFlight q = s.world.inFlight q := by
  have held := Session.inFlight_learnTests c suite.context suite.tests
    (s.note (.learningSuite suite.tests.length)) q
  rw [learnPreconditions]
  split
  · rfl
  · rcases learned : Session.learnTests c suite.context suite.tests
      (s.note (.learningSuite suite.tests.length)) with ⟨results, _ | e, s'⟩ <;>
      rw [learned] at held <;> exact held

end Suite

/-- **Learning is interrupted by a misuse.**  With any collaborators and in any session, learning for
a suite without an allowed attempt is refused for its settings and changes nothing of the suite.
Otherwise it fails with a misuse when and only when its run for one of the tests breaks off with that
misuse, after it has gone through the tests before.  Then the session is the one in which the misuse
arose, so that no later test is turned to, and the suite has the results of the tests before and none
else.  A refusal of the oracle is such a misuse, where the learner passes it on.  In any case what is
held is held as before. -/
theorem Suite.learning_interrupted {φ σ κ : Type} (c : Collaborators φ σ κ) (suite : Suite)
    (s : Session φ κ) :
    (suite.context.settings.maxLearnerRetries = 0 →
      suite.learnPreconditions c s =
        (.error (.invalidSettings "max_learner_retries must be at least 1"), suite,
          s.note (.learningSuite suite.tests.length))) ∧
    (0 < suite.context.settings.maxLearnerRetries → ∀ (e : ConditionError) (suite' : Suite)
      (s' : Session φ κ),
      suite.learnPreconditions c s = (.error (.condition e), suite', s') ↔
        ∃ front t back results s₁, suite.tests = front ++ t :: back ∧
          Session.learnTests c suite.context front (s.note (.learningSuite suite.tests.length)) =
            (results, none, s₁) ∧
          results.map (·.test) = front ∧
          (LearningRun.start suite.context t).BreaksOff c suite.context
            ((s₁.note (.enteringTest t.name t.condition.description)).note .learning) e s' ∧
          suite' = { suite with results }) ∧
    (c.PassesOn suite.context → ∀ (r : LearningRun) (z z₁ : Session φ κ) (d : Discovery)
      (sample : Tree) (e : ConditionError),
      z.discover c suite.context r.test = (.ok d, z₁) →
      .asked sample (.error e) ∈ z₁.exchanges c suite.context r.test (r.pools ++ d.pools) →
        ∃ z', r.Misuse c suite.context z e z') ∧
    ∀ q, (suite.learnPreconditions c s).2.2.world.inFlight q = s.world.inFlight q := by
  refine ⟨fun none => by rw [learnPreconditions, if_pos none], fun allowed e suite' s' => ?_, ?_,
    inFlight_learnPreconditions c suite s⟩
  · rw [learnPreconditions_eq_error_iff allowed]
    constructor
    · rintro ⟨results, learned, stored⟩
      obtain ⟨front, t, back, s₁, split, before, here⟩ :=
        Session.learnTests_eq_error_iff.1 learned
      exact ⟨front, t, back, results, s₁, split, before, Session.tests_of_learnTests before,
        Session.learnTest_eq_error_iff.1 here, stored⟩
    · rintro ⟨front, t, back, results, s₁, split, before, -, breaks, stored⟩
      exact ⟨results, Session.learnTests_eq_error_iff.2
        ⟨front, t, back, s₁, split, before, Session.learnTest_eq_error_iff.2 breaks⟩, stored⟩
  · intro passes r z z₁ d sample e discovered refused
    have reported := passes r.test (r.pools ++ d.pools) z₁ sample e refused
    exact ⟨_, .learning discovered (Prod.ext reported rfl)⟩

/-- A test that asks for the letter b. -/
def asksForB : ObservedTest where
  id := 1
  name := "other letter"
  condition := .leaf ⟨1, "is b"⟩
  body input := if input = "b" then .trigger ⟨1, "is b"⟩ 1 .done else .done

/-- A suite with a test for each letter, and a result from earlier. -/
def twoLetterSuite : Suite where
  context := { letterContext with
    settings := { targetNumSamples := 1, numTries := 2, maxLearnerRetries := 1 }
    register := [isLetterA, asksForB] }
  results := [⟨asksForB, [], 4⟩]

/-- A learner that watches the condition of the second test and asks about each positive sample. -/
def secondWatchingLearner : Learner (List LearnerCall) :=
  .watching asksForB.condition (LearnerScript.learner {})

/-- The session in which the first test has been learned for. -/
def firstLetterSession : Session Unit (List LearnerCall) :=
  (Session.learnTests (letterSource secondWatchingLearner) twoLetterSuite.context [isLetterA]
    (letterSession.note (.learningSuite 2))).2.2

/-- The learner's watching does no harm to the first test.  For the second its oracle refuses, and
learning stops with a result for the first test only. -/
theorem Suite.learning_interrupted_letters :
    0 < twoLetterSuite.context.settings.maxLearnerRetries ∧
    (letterSource secondWatchingLearner).PassesOn twoLetterSuite.context ∧
    ∃ s', twoLetterSuite.learnPreconditions (letterSource secondWatchingLearner) letterSession =
        (.error (.condition (.observationInFlight "is b")),
          { twoLetterSuite with results := [⟨isLetterA, [], 1⟩] }, s') ∧
      s'.world.inFlight ⟨1, "is b"⟩ = false := by
  have allowed : 0 < twoLetterSuite.context.settings.maxLearnerRetries := by decide
  have passes : (letterSource secondWatchingLearner).PassesOn twoLetterSuite.context :=
    (letterSource secondWatchingLearner).passesOn_watching _ asksForB.condition rfl
  obtain ⟨-, fails, refused, held⟩ := learning_interrupted (letterSource secondWatchingLearner)
    twoLetterSuite letterSession
  obtain ⟨s', misuse⟩ := refused passes (LearningRun.start twoLetterSuite.context asksForB)
    ((firstLetterSession.note (.enteringTest "other letter" "is b")).note .learning) _ _
    (.terminal "b") (.observationInFlight "is b") rfl (.tail _ (.head _))
  have failed := (fails allowed (.observationInFlight "is b") _ s').2
    ⟨[isLetterA], asksForB, [], [⟨isLetterA, [], 1⟩], firstLetterSession, rfl, rfl, rfl,
      .now (by decide) misuse, rfl⟩
  refine ⟨allowed, passes, s', failed, ?_⟩
  have same := held ⟨1, "is b"⟩
  rw [failed] at same
  rw [same]
  rfl

end PreconditionMining
