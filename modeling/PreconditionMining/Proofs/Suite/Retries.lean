/-
# Empty answers across a suite

A scripted learner counts its calls, and answers the first of them with nothing.  A learning
run counts its attempts, and starts its pools and its count afresh for each test.  The two
counts meet in a suite: what one test uses up of the empty answers is not there for the
next.

While the tests are free, each attempt asks the learner exactly once, whose answer goes by the
number of its calls (`LearningRun.attempt_answeredBy`).  So a run ends with the first answer that
is not empty or when its allowance is used up, whichever is earlier (`Course.answeredBy`).  With
`k` empty answers and `r` attempts for each test, the test at place `i` finds `k - i * r` of them
left: what one test takes is taken from all that follow (`emptyLeft_after`), by induction on the
tests (`Session.learnTests_answeredBy`).  `Suite.shares_empty_answers` says what each test is
given and what the learner has recorded.
-/

import PreconditionMining.Proofs.Suite.Completion
import PreconditionMining.Proofs.Suite.Iteration

namespace PreconditionMining

namespace LearnerScript

/-- What a scripted learner that never fails answers after a number of calls. -/
def answerAfter (script : LearnerScript) (calls : Nat) : List Candidate :=
  if calls < script.emptyCalls then [] else script.candidates

/-- How many empty answers a scripted learner has left after some calls. -/
def emptyLeft (script : LearnerScript) (calls : List LearnerCall) : Nat :=
  script.emptyCalls - calls.length

/-- **What one test leaves of the empty answers** that the tests after it find. -/
theorem emptyLeft_after (script : LearnerScript) {retries : Nat} {calls calls' : List LearnerCall}
    (made : calls'.length = calls.length + min retries (script.emptyLeft calls + 1)) (i : Nat) :
    script.emptyLeft calls' - i * retries = script.emptyLeft calls - (i + 1) * retries := by
  rw [emptyLeft] at made
  rw [emptyLeft, emptyLeft, made, Nat.succ_mul]
  omega

end LearnerScript

/-- **Questions about a free test are all answered,** in whatever order the samples come. -/
theorem Session.run_askAll_of_free {φ κ α : Type} {ctx : Context} {t : ObservedTest}
    {next : Except ConditionError Nat → Dialogue α} (samples : List Tree) (confirmed : Nat)
    {s : Session φ κ} (free : t.Free s.world) :
    ∃ k s', (Dialogue.askAll samples confirmed next).run (partner ctx t) s =
      (next (.ok k)).run (partner ctx t) s' := by
  induction samples generalizing confirmed s with
  | nil => exact ⟨confirmed, s, rfl⟩
  | cons sample rest ih =>
    obtain ⟨triggered, s', judged, same⟩ := classify_of_free ctx free sample
    have said : (partner ctx t).ask sample s = (.ok triggered, s') := judged
    rw [Dialogue.askAll, Dialogue.run, said]
    exact ih _ (free.congr same)

/-- The sum of sizes may begin with pools or with their parts. -/
theorem PoolSizes.sum_append (p q : Pools) (rest : List PoolSizes) :
    sum ((p ++ q).sizes :: rest) = sum (p.sizes :: q.sizes :: rest) := by
  simp [sum, Pools.sizes, Nat.add_assoc]

theorem PoolSizes.zero_sum (rest : List PoolSizes) : sum (zero :: rest) = sum rest := by
  simp [sum, zero]

namespace LearningRun

variable {φ : Type}

/-- **An attempt that a scripted learner answers,** with the run and the session before and after
it: the answer goes by the number of the calls before, and the learner records the pools as they are
then. -/
structure AnsweredBy (script : LearnerScript) (r : LearningRun) (s : Session φ (List LearnerCall))
    (a : Attempt) (r' : LearningRun) (s' : Session φ (List LearnerCall)) : Prop where
  test : r'.test = r.test
  maxRetries : r'.maxRetries = r.maxRetries
  made : r'.made = r.made + 1
  number : a.number = r.made + 1
  candidates : a.candidates = script.answerAfter s.learner.length
  pools : ∃ d : Discovery, r'.pools = r.pools ++ d.pools ∧ a.discovered = d.pools.sizes
  accumulated : a.accumulated = r'.pools.sizes
  recorded : ∃ call : LearnerCall, s'.learner = s.learner ++ [call] ∧ call.sizes = a.accumulated
  held : ∀ q, s'.world.inFlight q = s.world.inFlight q

/-- **Attempts that a scripted learner answers,** one after another, from a run and a session to the
session after them. -/
structure AllAnsweredBy (script : LearnerScript) (r : LearningRun)
    (s : Session φ (List LearnerCall)) (run : List Attempt) (s' : Session φ (List LearnerCall)) :
    Prop where
  number : ∀ j (a : Attempt), run[j]? = some a → a.number = r.made + j + 1
  candidates : ∀ j (a : Attempt), run[j]? = some a →
    a.candidates = script.answerAfter (s.learner.length + j)
  accumulated : ∀ j (a : Attempt), run[j]? = some a →
    a.accumulated = .sum (r.pools.sizes :: (run.take (j + 1)).map (·.discovered))
  recorded : s'.learner.map (·.sizes) = s.learner.map (·.sizes) ++ run.map (·.accumulated)
  held : ∀ q, s'.world.inFlight q = s.world.inFlight q

variable {script : LearnerScript} {r r' : LearningRun} {s s' s'' : Session φ (List LearnerCall)}

theorem AllAnsweredBy.nil : AllAnsweredBy script r s [] s where
  number _ _ found := by cases found
  candidates _ _ found := by cases found
  accumulated _ _ found := by cases found
  recorded := (List.append_nil _).symm
  held _ := rfl

/-- **One attempt more in front.** -/
theorem AllAnsweredBy.cons {a : Attempt} {run : List Attempt}
    (first : AnsweredBy script r s a r' s')
    (h : AllAnsweredBy script { r' with finished := false } s' run s'') :
    AllAnsweredBy script r s (a :: run) s'' := by
  obtain ⟨d, pools, discovered⟩ := first.pools
  obtain ⟨call, recorded, sizes⟩ := first.recorded
  have total : ∀ rest, PoolSizes.sum (r'.pools.sizes :: rest) =
      .sum (r.pools.sizes :: a.discovered :: rest) := by
    intro rest
    rw [pools, PoolSizes.sum_append, discovered]
  refine ⟨fun j b found => ?_, fun j b found => ?_, fun j b found => ?_, ?_,
    fun q => (h.held q).trans (first.held q)⟩
  · cases j with
    | zero =>
      obtain rfl := Option.some.inj found
      exact first.number
    | succ j =>
      have later := h.number j b found
      have made := first.made
      simp only at later
      omega
  · cases j with
    | zero =>
      obtain rfl := Option.some.inj found
      exact first.candidates
    | succ j =>
      rw [h.candidates j b found, recorded, List.length_append, List.length_singleton,
        Nat.add_right_comm, Nat.add_assoc]
  · cases j with
    | zero =>
      obtain rfl := Option.some.inj found
      exact first.accumulated.trans (total [])
    | succ j =>
      rw [h.accumulated j b found, total, List.take_succ_cons, List.map_cons]
  · rw [h.recorded, recorded, List.map_append, List.map_singleton, sizes, List.map_cons,
      List.append_assoc]
    rfl

/-- Nothing of this depends on what is told before or after. -/
theorem AllAnsweredBy.of_note {run : List Attempt} {e : Event}
    (h : AllAnsweredBy script r (s.note e) run s') : AllAnsweredBy script r s run s' :=
  ⟨h.number, h.candidates, h.accumulated, h.recorded, h.held⟩

theorem AllAnsweredBy.note {run : List Attempt} (h : AllAnsweredBy script r s run s') (e : Event) :
    AllAnsweredBy script r s run (s'.note e) :=
  ⟨h.number, h.candidates, h.accumulated, h.recorded, h.held⟩

/-- Each attempt is recorded by one call. -/
theorem AllAnsweredBy.length_learner {run : List Attempt} (h : AllAnsweredBy script r s run s') :
    s'.learner.length = s.learner.length + run.length := by
  simpa using congrArg List.length h.recorded

/-- One attempt is a run of its own. -/
theorem AnsweredBy.all {a : Attempt} (h : AnsweredBy script r s a r' s') :
    AllAnsweredBy script r s [a] s' :=
  AllAnsweredBy.nil.cons h

end LearningRun

/-- **What a scripted learner gives a test** that finds some empty answers left, with the attempts
of its run: an attempt for each of them and one more, if that many are allowed, and then the
formulas; each attempt tells the samples of this run only. -/
structure LearnerScript.Serves (script : LearnerScript) (retries empty : Nat) (result : TestResult)
    (run : List Attempt) : Prop where
  attempts : result.attempts = min retries (empty + 1)
  preconditions : result.preconditions =
    if empty < retries then script.candidates.map (·.formula) else []
  made : run.length = result.attempts
  number : ∀ j (a : Attempt), run[j]? = some a → a.number = j + 1
  accumulated : ∀ j (a : Attempt), run[j]? = some a →
    a.accumulated = .sum ((run.take (j + 1)).map (·.discovered))

/-- **A run from the start serves its test.** -/
theorem LearningRun.AllAnsweredBy.serves {φ : Type} {script : LearnerScript} {ctx : Context}
    {t : ObservedTest} {s s' : Session φ (List LearnerCall)} {run : List Attempt}
    (h : AllAnsweredBy script (start ctx t) s run s') (retries : 1 ≤ ctx.settings.maxLearnerRetries)
    (length : run.length =
      min (ctx.settings.maxLearnerRetries - 0) (script.emptyLeft s.learner + 1)) :
    ∃ a, run.getLast? = some a ∧
      script.Serves ctx.settings.maxLearnerRetries (script.emptyLeft s.learner)
        ⟨t, a.candidates.map (·.formula), a.number⟩ run := by
  have inside : run.length - 1 < run.length := by omega
  have last := List.getElem?_eq_getElem inside
  have number := h.number _ _ last
  have candidates := h.candidates _ _ last
  generalize run[run.length - 1] = a at last number candidates
  rw [Nat.sub_zero] at length
  have start : (LearningRun.start ctx t).made = 0 := rfl
  have made : run.length = a.number := by omega
  refine ⟨a, by rw [List.getLast?_eq_getElem?, last], ⟨made ▸ length, ?_, made, fun j b found => ?_,
    fun j b found => ?_⟩⟩
  · -- the last answer is empty when and only when the allowance was used up before
    have empty : s.learner.length + (run.length - 1) < script.emptyCalls ↔
        ¬ script.emptyLeft s.learner < ctx.settings.maxLearnerRetries := by
      rw [LearnerScript.emptyLeft] at length ⊢
      omega
    show a.candidates.map (·.formula) = _
    rw [candidates, LearnerScript.answerAfter]
    by_cases early : script.emptyLeft s.learner < ctx.settings.maxLearnerRetries
    · rw [if_pos early, if_neg fun vain => empty.1 vain early]
    · rw [if_neg early, if_pos (empty.2 early)]
      rfl
  · rw [h.number j b found, start, Nat.zero_add]
  · rw [h.accumulated j b found]
    exact PoolSizes.zero_sum _

namespace Session

variable {φ σ κ : Type}

/-- The items of the run for a test, when it is learned for in a session. -/
def run (c : Collaborators φ σ κ) (ctx : Context) (t : ObservedTest) (s : Session φ κ) :
    List (Except ConditionError Attempt) :=
  ((LearningRun.start ctx t).items c ctx
    ((s.note (.enteringTest t.name t.condition.description)).note .learning)).1

/-- The items of the runs for some tests, each in the session that the learning for the tests before
it leaves behind. -/
def runs (c : Collaborators φ σ κ) (ctx : Context) :
    List ObservedTest → Session φ κ → List (List (Except ConditionError Attempt))
  | [], _ => []
  | t :: ts, s => s.run c ctx t :: runs c ctx ts (s.learnTest c ctx t).2

/-- Of attempts without a misuse the last one counts. -/
theorem lastAttempt_map_ok (run : List Attempt) (before : Nat × List Candidate) :
    lastAttempt (run.map .ok) before =
      .ok ((run.getLast?.map fun a => (a.number, a.candidates)).getD before) := by
  induction run generalizing before with
  | nil => rfl
  | cons a run ih =>
    rw [List.map_cons, lastAttempt, ih]
    cases run <;> simp [List.getLast?_cons]

end Session

section Scripted

variable {φ σ κ : Type} (c : Collaborators φ σ κ) (ctx : Context) {script : LearnerScript}
  (willing : script.failure = none)

include willing

/-- **A scripted learner that is asked about a free test** records one call and answers by the
number of the calls before. -/
theorem Session.learn_scripted {t : ObservedTest} (pools : Pools)
    {s : Session φ (List LearnerCall)} (free : t.Free s.world) :
    ∃ call : LearnerCall, call.sizes = pools.sizes ∧
      (s.learn (c.withLearner script.learner) ctx t pools).1 =
        .ok (script.answerAfter s.learner.length) ∧
      (s.learn (c.withLearner script.learner) ctx t pools).2.learner = s.learner ++ [call] := by
  have replied : ∀ request confirmed, script.reply request confirmed s.learner =
      (.ok (script.answerAfter s.learner.length),
        s.learner ++ [⟨request.pools.sizes, request.options.activatedPatterns, confirmed⟩]) := by
    intro request confirmed
    rw [LearnerScript.reply, willing]
    rfl
  rw [learn]
  by_cases checks : script.checksOracle = true
  · simp only [Collaborators.withLearner, LearnerScript.learner, checks, if_true]
    obtain ⟨confirmed, s', same⟩ := run_askAll_of_free pools.positive 0 free
    rw [same, Dialogue.run, replied]
    exact ⟨_, rfl, rfl, rfl⟩
  · simp only [Collaborators.withLearner, LearnerScript.learner, checks]
    rw [if_neg Bool.false_ne_true, Dialogue.run, replied]
    exact ⟨_, rfl, rfl, rfl⟩

/-- **An attempt for a free test** succeeds, and the learner answers it. -/
theorem LearningRun.attempt_answeredBy {r : LearningRun} {s : Session φ (List LearnerCall)}
    (free : r.test.Free s.world) :
    ∃ a r' s', r.attempt (c.withLearner script.learner) ctx s = (.ok a, r', s') ∧
      AnsweredBy script r s a r' s' := by
  obtain ⟨d, s₁, found, kept, held⟩ :=
    Session.discover_of_free (c.withLearner script.learner) ctx free
  obtain ⟨call, sizes, answered, recorded⟩ :=
    Session.learn_scripted c ctx willing (r.pools ++ d.pools) (free.congr held)
  have held' := Session.inFlight_learn (c.withLearner script.learner) ctx r.test
    (r.pools ++ d.pools) s₁
  rw [kept] at answered recorded
  rw [attempt]
  simp only [found]
  rw [candidates]
  rcases said : s₁.learn (c.withLearner script.learner) ctx r.test (r.pools ++ d.pools) with
    ⟨answer, s₂⟩
  rw [said] at answered recorded held'
  subst answered
  exact ⟨_, _, _, rfl, rfl, rfl, rfl, rfl, rfl, ⟨d, rfl, rfl⟩, rfl, ⟨call, recorded, sizes⟩,
    fun q => (held' q).trans (held q)⟩

/-- **A run for a free test asks until it is given candidates,** or until its attempts are used
up. -/
theorem LearningRun.Course.answeredBy (named : script.candidates ≠ []) {r r' : LearningRun}
    {s s' : Session φ (List LearnerCall)} {items : List (Except ConditionError Attempt)}
    (h : Course (c.withLearner script.learner) ctx r s items r' s') (free : r.test.Free s.world) :
    ∃ run, items = run.map .ok ∧ AllAnsweredBy script r s run s' ∧
      run.length = min (r.maxRetries - r.made) (script.emptyLeft s.learner + 1) := by
  induction h with
  | @spent r s used =>
    exact ⟨[], rfl, .nil, by rw [List.length_nil, Nat.sub_eq_zero_of_le used, Nat.zero_min]⟩
  | @ended r r' s s' item left made final =>
    obtain ⟨a, r₁, s₁, made', answered⟩ := attempt_answeredBy c ctx willing free
    obtain ⟨rfl, rfl, rfl⟩ : item = .ok a ∧ r' = r₁ ∧ s' = s₁ := by
      simpa using made.symm.trans made'
    have spent : ¬ s.learner.length < script.emptyCalls := by
      intro empty
      rw [ends, answered.candidates, LearnerScript.answerAfter, if_pos empty] at final
      cases final
    refine ⟨[a], rfl, answered.all, ?_⟩
    rw [LearnerScript.emptyLeft, List.length_singleton]
    omega
  | @goesOn r r' r'' s s' s'' item items left made unfinished rest ih =>
    obtain ⟨a, r₁, s₁, made', answered⟩ := attempt_answeredBy c ctx willing free
    obtain ⟨rfl, rfl, rfl⟩ : item = .ok a ∧ r' = r₁ ∧ s' = s₁ := by
      simpa using made.symm.trans made'
    have empty : s.learner.length < script.emptyCalls := by
      refine Nat.lt_of_not_le fun spent => named ?_
      have none : a.candidates = [] := by simpa [ends] using unfinished
      rwa [answered.candidates, LearnerScript.answerAfter, if_neg (Nat.not_lt.2 spent)] at none
    obtain ⟨run, rfl, later, length⟩ := ih (by
      show r'.test.Free s'.world
      rw [answered.test]
      exact free.congr answered.held)
    refine ⟨a :: run, rfl, later.cons answered, ?_⟩
    obtain ⟨call, recorded, -⟩ := answered.recorded
    have count := answered.made
    have allowance := answered.maxRetries
    rw [LearnerScript.emptyLeft, recorded, List.length_append, List.length_singleton] at length
    rw [LearnerScript.emptyLeft, List.length_cons, length]
    simp only
    omega

namespace Session

/-- **The learning for a free test** makes its attempts until the empty answers or its allowance are
used up, and gives the learner's formulas when the former are. -/
theorem learnTest_answeredBy (named : script.candidates ≠ [])
    (retries : 1 ≤ ctx.settings.maxLearnerRetries) {t : ObservedTest}
    {s : Session φ (List LearnerCall)} (free : t.Free s.world) :
    ∃ result run s', s.learnTest (c.withLearner script.learner) ctx t = (.ok result, s') ∧
      result.test = t ∧ s.run (c.withLearner script.learner) ctx t = run.map .ok ∧
      script.Serves ctx.settings.maxLearnerRetries (script.emptyLeft s.learner) result run ∧
      LearningRun.AllAnsweredBy script (LearningRun.start ctx t) s run s' := by
  have course := LearningRun.course_items (c.withLearner script.learner) ctx
    (r := LearningRun.start ctx t)
    ((s.note (.enteringTest t.name t.condition.description)).note .learning) rfl
  obtain ⟨run, same, answered, length⟩ := course.answeredBy c ctx willing named free
  obtain ⟨a, last, serves⟩ := answered.serves retries length
  rw [learnTest, Session.run]
  simp only [same, lastAttempt_map_ok, last, Option.map_some, Option.getD_some]
  refine ⟨_, run, _, rfl, rfl, rfl, serves, ?_⟩
  have noted : ∀ z e, LearningRun.AllAnsweredBy script (LearningRun.start ctx t) s run z →
      LearningRun.AllAnsweredBy script (LearningRun.start ctx t) s run (z.note e) :=
    fun _ e h => h.note e
  exact tellLearned_keeps noted answered.of_note.of_note a.number a.candidates

/-- **The learning for free tests serves each of them,** with what the tests before it have left of
the empty answers. -/
theorem learnTests_answeredBy (named : script.candidates ≠ [])
    (retries : 1 ≤ ctx.settings.maxLearnerRetries) :
    ∀ (ts : List ObservedTest) {s : Session φ (List LearnerCall)}, (∀ t ∈ ts, t.Free s.world) →
      ∃ (served : List (TestResult × List Attempt)) (s' : Session φ (List LearnerCall)),
        learnTests (c.withLearner script.learner) ctx ts s = (served.map (·.1), none, s') ∧
        served.map (·.1.test) = ts ∧
        runs (c.withLearner script.learner) ctx ts s = served.map (fun p => p.2.map .ok) ∧
        (∀ i p, served[i]? = some p → script.Serves ctx.settings.maxLearnerRetries
          (script.emptyLeft s.learner - i * ctx.settings.maxLearnerRetries) p.1 p.2) ∧
        s'.learner.map (·.sizes) =
          s.learner.map (·.sizes) ++ (served.flatMap (·.2)).map (·.accumulated)
  | [], s, _ => ⟨[], s, rfl, rfl, rfl, fun _ _ found => (nomatch found), (List.append_nil _).symm⟩
  | t :: ts, s, free => by
    obtain ⟨freeFirst, freeLater⟩ := List.forall_mem_cons.1 free
    obtain ⟨result, run, s₁, learned, own, items, serves, answered⟩ :=
      learnTest_answeredBy c ctx willing named retries freeFirst
    obtain ⟨served, s', later, tied, runs', each, recorded⟩ := learnTests_answeredBy named retries
      ts fun u mem => (freeLater u mem).congr answered.held
    refine ⟨(result, run) :: served, s', ?_, ?_, ?_, fun i p found => ?_, ?_⟩
    · rw [learnTests, learned]
      simp only [later, List.map_cons]
    · rw [List.map_cons, tied, own]
    · rw [runs, items, learned, runs', List.map_cons]
    · cases i with
      | zero =>
        obtain rfl := Option.some.inj found
        rw [Nat.zero_mul, Nat.sub_zero]
        exact serves
      | succ i =>
        have calls := answered.length_learner
        rw [serves.made, serves.attempts] at calls
        rw [← script.emptyLeft_after calls]
        exact each i p found
    · rw [recorded, answered.recorded, List.flatMap_cons, List.map_append, List.append_assoc]

end Session

end Scripted

/-- **The tests of a suite share the empty answers of their learner.**  With any solvers, any tests
that are free and any number of them, let at least one attempt be allowed for each, and let a
learner follow a script that never fails and names candidates after some empty answers.  Then
learning completes.  The test at place `i` finds as many empty answers left as there were at first, less what
`i` allowances of attempts use up.  It takes an attempt for each of these and one more, or all that
are allowed if these are fewer; it is given the learner's formulas when one of its attempts is not
answered with nothing, and no others; and its attempts tell the samples of its own run only, with
those of the attempts before.  The learner has recorded exactly one call for each attempt, in order
over all tests, with these sizes. -/
theorem Suite.shares_empty_answers {φ σ κ : Type} (c : Collaborators φ σ κ) (suite : Suite)
    (script : LearnerScript) (s : Session φ (List LearnerCall)) (named : script.candidates ≠ [])
    (willing : script.failure = none) (retries : 1 ≤ suite.context.settings.maxLearnerRetries)
    (free : ∀ t ∈ suite.tests, t.Free s.world) :
    ∃ (served : List (TestResult × List Attempt)) (s' : Session φ (List LearnerCall)),
      suite.learnPreconditions (c.withLearner script.learner) s =
        (.ok (served.map (·.1)), { suite with results := served.map (·.1) }, s') ∧
      served.map (·.1.test) = suite.tests ∧
      Session.runs (c.withLearner script.learner) suite.context suite.tests
        (s.note (.learningSuite suite.tests.length)) = served.map (fun p => p.2.map .ok) ∧
      (∀ i p, served[i]? = some p → script.Serves suite.context.settings.maxLearnerRetries
        (script.emptyLeft s.learner - i * suite.context.settings.maxLearnerRetries) p.1 p.2) ∧
      s'.learner.map (·.sizes) =
        s.learner.map (·.sizes) ++ (served.flatMap (·.2)).map (·.accumulated) := by
  obtain ⟨served, s', learned, tied, runs, each, recorded⟩ := Session.learnTests_answeredBy c
    suite.context willing named retries suite.tests
    (s := s.note (.learningSuite suite.tests.length)) free
  rw [learnPreconditions, if_neg (Nat.ne_of_gt retries)]
  simp only [learned]
  exact ⟨served, _, rfl, tied, runs, each, recorded⟩

/-- A suite with two tests for the letter a and two attempts for each. -/
def letterTwiceSuite : Suite where
  context :=
    { letterContext with
      settings := { targetNumSamples := 1, numTries := 2, maxLearnerRetries := 2 }
      register := [isLetterA, { isLetterA with id := 1 }] }

/-- A learner that names a formula after three empty answers. -/
def hesitantScript : LearnerScript where
  candidates := [⟨.atom "a", 1, 1⟩]
  emptyCalls := 3

/-- The first test uses up two of the empty answers in vain, and the second one the third. -/
theorem Suite.shares_empty_answers_letters :
    hesitantScript.candidates ≠ [] ∧ hesitantScript.failure = none ∧
    1 ≤ letterTwiceSuite.context.settings.maxLearnerRetries ∧
    (∀ t ∈ letterTwiceSuite.tests, t.Free letterSession.world) ∧
    ∃ results s', letterTwiceSuite.learnPreconditions (letterSource hesitantScript.learner)
        letterSession = (.ok results, { letterTwiceSuite with results }, s') ∧
      results.map (fun r => (r.preconditions, r.attempts)) = [([], 2), ([.atom "a"], 2)] ∧
      s'.learner.map (·.sizes) = [⟨1, 1⟩, ⟨2, 2⟩, ⟨1, 1⟩, ⟨2, 2⟩] := by
  have named : hesitantScript.candidates ≠ [] := List.cons_ne_nil _ _
  have free : ∀ t ∈ letterTwiceSuite.tests, t.Free letterSession.world := fun _ _ _ _ => rfl
  obtain ⟨served, s', learned, -⟩ :=
    shares_empty_answers (letterSource hesitantScript.learner) letterTwiceSuite hesitantScript
      letterSession named rfl (by decide) free
  have done : letterTwiceSuite.learnPreconditions (letterSource hesitantScript.learner)
      letterSession = (.ok (served.map (·.1)),
        { letterTwiceSuite with results := served.map (·.1) }, s') := learned
  have told : (letterTwiceSuite.learnPreconditions (letterSource hesitantScript.learner)
      letterSession).2.1.results.map (fun r => (r.preconditions, r.attempts)) =
        [([], 2), ([.atom "a"], 2)] := rfl
  have recorded : (letterTwiceSuite.learnPreconditions (letterSource hesitantScript.learner)
      letterSession).2.2.learner.map (·.sizes) = [⟨1, 1⟩, ⟨2, 2⟩, ⟨1, 1⟩, ⟨2, 2⟩] := rfl
  rw [done] at told recorded
  exact ⟨named, rfl, by decide, free, served.map (·.1), s', done, told, recorded⟩

end PreconditionMining
