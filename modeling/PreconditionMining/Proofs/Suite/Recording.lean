/-
# A record of what is built changes nothing

A builder with a record answers as it does without one, and nobody reads the record.  So
each piece of work of a suite does with it what it does without: the same comes of it, and
the sessions after it are the same but for the record (`Session.unrecorded`).  This is shown
for each kind of work from the kinds that it is made of, up to whole runs of a suite
(`Suite.performAll_unrecorded`), which therefore have a record of their own
(`Suite.exists_record`).
-/

import PreconditionMining.Proofs.Suite.Building
import PreconditionMining.Proofs.Suite.Embedding

namespace PreconditionMining

variable {φ σ κ : Type}

namespace Session

/-- The session without the record of what was built. -/
def unrecorded (s : Session (φ × List (Build σ)) κ) : Session φ κ := s.map Prod.fst id

/-- The same session, with a record of what was built. -/
def withBuilds (s : Session φ κ) (builds : List (Build σ)) : Session (φ × List (Build σ)) κ :=
  s.map (·, builds) id

variable (c : Collaborators φ σ κ) (ctx : Context) (t : ObservedTest)

/-- Solvers are built and drawn from as they are with a record. -/
theorem embeds_recordingBuilds : c.recordingBuilds.Embeds Prod.fst c :=
  ⟨fun _ _ _ _ => rfl, rfl⟩

/-- What is told is told whether or not there is a record. -/
theorem note_unrecorded (e : Event) (s : Session (φ × List (Build σ)) κ) :
    s.unrecorded.note e = (s.note e).unrecorded := rfl

/-- So is all of what a call tells. -/
theorem noteAll_unrecorded (es : List Event) (s : Session (φ × List (Build σ)) κ) :
    s.unrecorded.noteAll es = (s.noteAll es).unrecorded :=
  noteAll_map es s

/-- A solver is built with a record as without one. -/
theorem create_unrecorded (formula : Option Formula) (options : SolverOptions)
    (s : Session (φ × List (Build σ)) κ) :
    s.unrecorded.create c ctx formula options =
      ((s.create c.recordingBuilds ctx formula options).1,
        (s.create c.recordingBuilds ctx formula options).2.unrecorded) :=
  create_map (embeds_recordingBuilds c) ctx formula options s

/-- A discovery has one solver built and draws from it, so a record makes no difference to it. -/
theorem discover_unrecorded (s : Session (φ × List (Build σ)) κ) :
    s.unrecorded.discover c ctx t =
      ((s.discover c.recordingBuilds ctx t).1,
        (s.discover c.recordingBuilds ctx t).2.unrecorded) :=
  discover_map (embeds_recordingBuilds c) ctx t s

/-- A learner is not shown the record: it sees the grammar, the samples and the answers of the
oracle. -/
theorem learn_unrecorded (pools : Pools) (s : Session (φ × List (Build σ)) κ) :
    s.unrecorded.learn c ctx t pools =
      ((s.learn c.recordingBuilds ctx t pools).1,
        (s.learn c.recordingBuilds ctx t pools).2.unrecorded) := by
  have same := run_map (f := Prod.fst) (g := id) ctx t
    (c.learner.learn ⟨ctx.grammar, pools, t.options.learner.getD {}⟩ s.learner) s
  rw [learn, learn]
  exact congrArg (fun out => (out.1.1, { out.2 with learner := out.1.2 })) same

end Session

namespace LearningRun

variable (c : Collaborators φ σ κ) (ctx : Context)

/-- The reaction to a learner's answer depends on the answer alone. -/
theorem candidates_unrecorded (r : LearningRun) (s : Session (φ × List (Build σ)) κ) :
    r.candidates c ctx s.unrecorded =
      ((r.candidates c.recordingBuilds ctx s).1,
        (r.candidates c.recordingBuilds ctx s).2.unrecorded) := by
  rw [candidates, candidates, Session.learn_unrecorded]
  rcases s.learn c.recordingBuilds ctx r.test r.pools with ⟨(e | reason) | found, s'⟩ <;> rfl

/-- An attempt is a discovery and a question to the learner, neither of which minds the record. -/
theorem attempt_unrecorded (r : LearningRun) (s : Session (φ × List (Build σ)) κ) :
    r.attempt c ctx s.unrecorded =
      ((r.attempt c.recordingBuilds ctx s).1, (r.attempt c.recordingBuilds ctx s).2.1,
        (r.attempt c.recordingBuilds ctx s).2.2.unrecorded) := by
  rw [attempt, attempt, Session.discover_unrecorded]
  rcases s.discover c.recordingBuilds ctx r.test with ⟨e | d, s'⟩
  · rfl
  · simp only [candidates_unrecorded]
    rcases candidates c.recordingBuilds ctx
      { r with made := r.made + 1, pools := r.pools ++ d.pools } s' with ⟨e | found, s''⟩ <;> rfl

/-- A run for a test gives the same items with a record, one attempt after another. -/
theorem takeItems_unrecorded (n : Nat) (r : LearningRun) (s : Session (φ × List (Build σ)) κ) :
    takeItems c ctx n r s.unrecorded =
      ((takeItems c.recordingBuilds ctx n r s).1, (takeItems c.recordingBuilds ctx n r s).2.1,
        (takeItems c.recordingBuilds ctx n r s).2.2.unrecorded) := by
  induction n generalizing r s with
  | zero => rfl
  | succ n ih =>
    rw [takeItems, takeItems]
    by_cases ended : r.Ended
    · rw [next_of_ended ended, next_of_ended ended]
    · rw [next_of_not_ended ended, next_of_not_ended ended, attempt_unrecorded]
      rcases r.attempt c.recordingBuilds ctx s with ⟨item, r', s'⟩
      simp only [ih]

/-- So it does when it goes on to its end. -/
theorem items_unrecorded (r : LearningRun) (s : Session (φ × List (Build σ)) κ) :
    r.items c ctx s.unrecorded =
      ((r.items c.recordingBuilds ctx s).1, (r.items c.recordingBuilds ctx s).2.1,
        (r.items c.recordingBuilds ctx s).2.2.unrecorded) :=
  takeItems_unrecorded c ctx (r.maxRetries - r.made) r s

end LearningRun

namespace Session

variable (c : Collaborators φ σ κ) (ctx : Context)

/-- What is told of the preconditions of a test has nothing to do with the record. -/
theorem tellLearned_unrecorded (attempts : Nat) (learned : List Candidate)
    (s : Session (φ × List (Build σ)) κ) :
    tellLearned ctx attempts learned s.unrecorded =
      (tellLearned ctx attempts learned s).unrecorded := by
  have told : (if 1 < attempts then s.unrecorded.note (.severalAttempts attempts)
        else s.unrecorded) =
      (if 1 < attempts then s.note (.severalAttempts attempts) else s).unrecorded := by
    split <;> rfl
  rw [tellLearned, tellLearned]
  simp only [told]
  split
  · rfl
  · exact noteAll_unrecorded _ _

/-- **A test gets the same result with a record.** -/
theorem learnTest_unrecorded (t : ObservedTest) (s : Session (φ × List (Build σ)) κ) :
    s.unrecorded.learnTest c ctx t =
      ((s.learnTest c.recordingBuilds ctx t).1,
        (s.learnTest c.recordingBuilds ctx t).2.unrecorded) := by
  rw [learnTest, learnTest, note_unrecorded, note_unrecorded, LearningRun.items_unrecorded]
  rcases (LearningRun.start ctx t).items c.recordingBuilds ctx
    ((s.note (.enteringTest t.name t.condition.description)).note .learning) with ⟨items, r, s'⟩
  simp only
  rcases lastAttempt items (0, []) with e | ⟨attempts, learned⟩
  · rfl
  · simp only [tellLearned_unrecorded]

/-- Tests in turn get the same results, each in the session that the tests before it left. -/
theorem learnTests_unrecorded (ts : List ObservedTest) (s : Session (φ × List (Build σ)) κ) :
    learnTests c ctx ts s.unrecorded =
      ((learnTests c.recordingBuilds ctx ts s).1, (learnTests c.recordingBuilds ctx ts s).2.1,
        (learnTests c.recordingBuilds ctx ts s).2.2.unrecorded) := by
  induction ts generalizing s with
  | nil => rfl
  | cons t ts ih =>
    rw [learnTests, learnTests, learnTest_unrecorded]
    rcases s.learnTest c.recordingBuilds ctx t with ⟨e | result, s'⟩
    · rfl
    · simp only [ih]

/-- The samples of a stream come from a solver that is there already, and building has no part in
them. -/
theorem drawFrom_unrecorded (n drawn : Nat) (q : σ) (s : Session (φ × List (Build σ)) κ) :
    drawFrom c n drawn q s.unrecorded =
      ((drawFrom c.recordingBuilds n drawn q s).1,
        (drawFrom c.recordingBuilds n drawn q s).2.unrecorded) := by
  induction n generalizing drawn q s with
  | zero => rfl
  | succ n ih =>
    have solver : c.recordingBuilds.solver = c.solver := rfl
    rw [drawFrom, drawFrom, solver, noteAll_unrecorded]
    rcases (c.solver.solve q).answer with e | sample
    · rfl
    · simp only [ih]

/-- A stream is the same with a record: its solver is, and so are its samples, or where it halts. -/
theorem drawStream_unrecorded (count : Nat) (t : ObservedTest) (formula : Option Formula)
    (s : Session (φ × List (Build σ)) κ) :
    s.unrecorded.drawStream c ctx count t formula =
      ((s.drawStream c.recordingBuilds ctx count t formula).1,
        (s.drawStream c.recordingBuilds ctx count t formula).2.unrecorded) := by
  rw [drawStream, drawStream, create_unrecorded]
  rcases s.create c.recordingBuilds ctx formula { ctx.solverOptions t with distinct := false }
    with ⟨e | q, s'⟩
  · rfl
  · simp only [drawFrom_unrecorded]
    split <;> rfl

/-- The judge of a stream never sees the record. -/
theorem split_unrecorded (t : ObservedTest) (samples : List Tree)
    (s : Session (φ × List (Build σ)) κ) :
    split ctx t samples s.unrecorded =
      ((split ctx t samples s).1, (split ctx t samples s).2.unrecorded) := by
  induction samples generalizing s with
  | nil => rfl
  | cons sample rest ih =>
    have judged : s.unrecorded.classify ctx t sample =
        ((s.classify ctx t sample).1, (s.classify ctx t sample).2.unrecorded) := rfl
    rw [split, split, judged]
    rcases s.classify ctx t sample with ⟨e | triggered, s'⟩
    · rfl
    · simp only [ih]
      rcases split ctx t rest s' with ⟨e | ⟨passing, failing⟩, s''⟩ <;> rfl

/-- Two streams that were drawn are split as without a record. -/
theorem measureStreams_unrecorded (t : ObservedTest) (raw constrained : List Tree)
    (s : Session (φ × List (Build σ)) κ) :
    measureStreams ctx t raw constrained s.unrecorded =
      ((measureStreams ctx t raw constrained s).1,
        (measureStreams ctx t raw constrained s).2.unrecorded) := by
  rw [measureStreams, measureStreams, split_unrecorded]
  rcases split ctx t raw s with ⟨e | raw, s'⟩
  · rfl
  · simp only [split_unrecorded]
    rcases split ctx t constrained s' with ⟨e | constrained, s''⟩ <;> rfl

/-- **A precondition is measured the same with a record.** -/
theorem measure_unrecorded (count : Nat) (t : ObservedTest) (precondition : Formula)
    (s : Session (φ × List (Build σ)) κ) :
    s.unrecorded.measure c ctx count t precondition =
      ((s.measure c.recordingBuilds ctx count t precondition).1,
        (s.measure c.recordingBuilds ctx count t precondition).2.unrecorded) := by
  rw [measure, measure, note_unrecorded, drawStream_unrecorded]
  rcases (s.note (.measuring t.name precondition.text)).drawStream c.recordingBuilds ctx count t
    ctx.formula with ⟨halt | _ | raw, s'⟩
  · rfl
  · rfl
  · simp only [drawStream_unrecorded]
    rcases s'.drawStream c.recordingBuilds ctx count t
      (some (.constrain ctx.formula precondition)) with ⟨halt | _ | constrained, s''⟩
    · rfl
    · rfl
    · simp only [measureStreams_unrecorded]
      rcases measureStreams ctx t raw constrained s'' with ⟨e | m, s₃⟩ <;> rfl

/-- Preconditions in turn get the same measurements. -/
theorem measureAll_unrecorded (count : Nat) (pairs : List (ObservedTest × Formula))
    (s : Session (φ × List (Build σ)) κ) :
    measureAll c ctx count pairs s.unrecorded =
      ((measureAll c.recordingBuilds ctx count pairs s).1,
        (measureAll c.recordingBuilds ctx count pairs s).2.unrecorded) := by
  induction pairs generalizing s with
  | nil => rfl
  | cons pair rest ih =>
    rw [measureAll, measureAll, measure_unrecorded]
    rcases s.measure c.recordingBuilds ctx count pair.1 pair.2 with ⟨halt | m, s'⟩
    · rfl
    · simp only [ih]
      rcases measureAll c.recordingBuilds ctx count rest s' with ⟨halt | records, s''⟩ <;> rfl

end Session

namespace Suite

variable (c : Collaborators φ σ κ)

/-- **A task does with a record what it does without.** -/
theorem perform_unrecorded (task : Task) (suite : Suite) (s : Session (φ × List (Build σ)) κ) :
    perform c task (suite, s.unrecorded) =
      ((perform c.recordingBuilds task (suite, s)).1,
        (perform c.recordingBuilds task (suite, s)).2.unrecorded) := by
  cases task with
  | learn =>
    rw [perform, perform, learnPreconditions, learnPreconditions]
    split
    · rfl
    · rw [Session.note_unrecorded, Session.learnTests_unrecorded]
      rcases Session.learnTests c.recordingBuilds suite.context suite.tests
        (s.note (.learningSuite suite.tests.length)) with ⟨results, _ | e, s'⟩ <;> rfl
  | discover t =>
    show (suite, (s.unrecorded.discover c suite.context t).2) = _
    rw [Session.discover_unrecorded]
    rfl
  | measure count =>
    rw [perform, perform, resultsAccuracy, resultsAccuracy]
    split
    · rfl
    · rw [Session.measureAll_unrecorded]
      rcases Session.measureAll c.recordingBuilds suite.context count
        (TestResult.pairs suite.results) s with ⟨halt | records, s'⟩ <;> rfl

/-- **A run does with a record what it does without.** -/
theorem performAll_unrecorded (tasks : List Task) (suite : Suite)
    (s : Session (φ × List (Build σ)) κ) :
    performAll c tasks (suite, s.unrecorded) =
      ((performAll c.recordingBuilds tasks (suite, s)).1,
        (performAll c.recordingBuilds tasks (suite, s)).2.unrecorded) := by
  induction tasks generalizing suite s with
  | nil => rfl
  | cons task tasks ih =>
    rw [performAll, List.foldl_cons, perform_unrecorded]
    exact ih _ _

/-- **A run has a record:** it goes as it does without one, and the record is a sequence of orders
for its tests, with the answers to them. -/
theorem exists_record {wanted : Order → Prop} {tasks : List Task} {suite : Suite}
    (wants : suite.Wants wanted tasks) (s : Session φ κ) :
    ∃ builds : List (Build σ),
      performAll c.recordingBuilds tasks (suite, s.withBuilds []) =
        ((performAll c tasks (suite, s)).1, (performAll c tasks (suite, s)).2.withBuilds builds) ∧
      c.Recorded s.solvers wanted ((performAll c tasks (suite, s)).2.solvers, builds) := by
  have same : performAll c tasks (suite, s) = _ :=
    performAll_unrecorded c tasks suite (s.withBuilds [])
  have recorded := recorded_performAll c wants (s := s.withBuilds []) rfl
  rw [same]
  exact ⟨_, rfl, recorded⟩

end Suite

end PreconditionMining
