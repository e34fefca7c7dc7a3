/-
# Valid settings work

A configuration is checked before anything is made of it, and the settings are put
to use elsewhere: by a suite that learns and measures, by the phases of a
discovery and by a log.  Here the two are brought together.

`validate_eq_ok_iff` says which configurations are valid, `Suite.BuiltFrom` which
suites come about from one: nothing that is done with a suite, short of giving it
other settings, changes what the checks were about (`BuiltFrom.follows`).  With the
calls of a suite's discoveries this shows that a valid configuration neither makes
a task be refused nor lets a discovery do nothing (`valid_settings_work`).
-/

import PreconditionMining.Config.Validation
import PreconditionMining.Logging.Logger
import PreconditionMining.Proofs.Suite.Agreement
import PreconditionMining.Proofs.Suite.Calls
import PreconditionMining.Suite.Basic

namespace PreconditionMining

namespace Level

/-- A name that is read is the name of the level that it is read as. -/
theorem name_of_ofName? {text : String} {l : Level} (read : ofName? text = some l) :
    l.name = text := by
  simpa using List.find?_some read

/-- **A log accepts each level by its name.** -/
theorem parse_name (l : Level) : Level.parse l.name = .ok l := by
  have read : parse? l.name = some l := by cases l <;> decide +kernel
  rw [Level.parse, read]

end Level

namespace HarnessConfig

/-- Nothing is asked for in vain, and what is logged is well described. -/
structure Valid (c : HarnessConfig) : Prop where
  samples : 0 < c.suite.targetNumSamples
  tries : 0 < c.suite.numTries
  retries : 0 < c.suite.maxLearnerRetries
  attempts : 0 < c.suite.solver.maxAttempts
  count : 0 < c.evaluation.sampleCount
  level : ∃ l : Level, c.logging.level = l.name
  logDir : c.logging.logDir ≠ some ""

/-- A check that comes first finds nothing, and neither do those behind it. -/
theorem ite_fault_eq_none_iff {p : Prop} [Decidable p] {e : ConfigError}
    {rest : Option ConfigError} : (if p then some e else rest) = none ↔ ¬ p ∧ rest = none := by
  by_cases h : p <;> simp [h]

/-- **A configuration is accepted when and only when it is valid.** -/
theorem validate_eq_ok_iff {c : HarnessConfig} : c.validate = .ok () ↔ c.Valid := by
  have accepted : c.validate = .ok () ↔ c.firstFault = none := by
    rw [validate]
    cases c.firstFault <;> simp
  have known : ¬ (Level.ofName? c.logging.level).isNone = true ↔
      ∃ l : Level, c.logging.level = l.name := by
    cases read : Level.ofName? c.logging.level with
    | none =>
      refine iff_of_false (fun some => some rfl) fun ⟨l, same⟩ => ?_
      rw [same, Level.ofName?_name] at read
      cases read
    | some l => exact iff_of_true nofun ⟨l, (Level.name_of_ofName? read).symm⟩
  rw [accepted, firstFault]
  simp only [ite_fault_eq_none_iff, known, ← Nat.pos_iff_ne_zero, and_true]
  constructor
  · rintro ⟨samples, tries, retries, attempts, count, level, logDir⟩
    exact ⟨samples, tries, retries, attempts, count, level, logDir⟩
  · rintro ⟨samples, tries, retries, attempts, count, level, logDir⟩
    exact ⟨samples, tries, retries, attempts, count, level, logDir⟩

end HarnessConfig

namespace Suite

variable {φ σ κ : Type}

/-- **The suites that come about from a configuration:** from its settings, with any grammar, formula
and input adapter, by registering tests, by telling people more or less, and by learning. -/
inductive BuiltFrom (config : HarnessConfig) : Suite → Prop
  | ofConfig (grammar : Grammar) (formula : Option Formula) (adapter : Option (Tree → String)) :
      BuiltFrom config (.ofConfig config grammar formula adapter)
  | observe {suite : Suite} (built : BuiltFrom config suite) (name : String)
      (conditions : List Condition) (options : ObserveOptions) (body : String → Script) :
      BuiltFrom config (suite.observe name conditions options body)
  | withVerbose {suite : Suite} (built : BuiltFrom config suite) (verbose : Bool) :
      BuiltFrom config (suite.withVerbose verbose)
  | learned {φ σ κ : Type} {suite : Suite} (built : BuiltFrom config suite)
      (c : Collaborators φ σ κ) (s : Session φ κ) :
      BuiltFrom config (suite.learnPreconditions c s).2.1

/-- Learning changes the results of a suite and nothing else. -/
theorem learnPreconditions_suite (c : Collaborators φ σ κ) (suite : Suite) (s : Session φ κ) :
    ∃ results, (suite.learnPreconditions c s).2.1 = { suite with results } := by
  rw [learnPreconditions]
  split
  · exact ⟨suite.results, rfl⟩
  · rcases Session.learnTests c suite.context suite.tests _ with ⟨results, e | _, s'⟩ <;>
      exact ⟨results, rfl⟩

/-- **A suite follows the configuration that it comes from,** except in how much it tells. -/
theorem BuiltFrom.follows {config : HarnessConfig} {suite : Suite}
    (built : suite.BuiltFrom config) :
    (∃ verbose, suite.context.settings = { config.suite with verbose }) ∧
      suite.evaluation = config.evaluation := by
  induction built with
  | ofConfig grammar formula adapter => exact ⟨⟨config.suite.verbose, rfl⟩, rfl⟩
  | observe built name conditions options body ih => exact ih
  | @withVerbose suite built verbose ih =>
    obtain ⟨⟨before, settings⟩, evaluation⟩ := ih
    refine ⟨⟨verbose, ?_⟩, evaluation⟩
    show { suite.context.settings with verbose } = { config.suite with verbose }
    rw [settings]
  | @learned _ _ _ suite built c s ih =>
    obtain ⟨results, same⟩ := learnPreconditions_suite c suite s
    rw [same]
    exact ih

/-- Learning is refused for its settings only where no attempt is allowed. -/
theorem learnPreconditions_ne_invalidSettings (c : Collaborators φ σ κ) {suite : Suite}
    (retries : 0 < suite.context.settings.maxLearnerRetries) (s : Session φ κ) (reason : String) :
    (suite.learnPreconditions c s).1 ≠ .error (.invalidSettings reason) := by
  rw [learnPreconditions, if_neg (Nat.ne_of_gt retries)]
  rcases Session.learnTests c suite.context suite.tests _ with ⟨results, e | _, s'⟩ <;>
    intro refused <;> cases refused

/-- An evaluation is refused for its settings only where the streams are to be empty. -/
theorem evaluate_ne_invalidSettings (c : Collaborators φ σ κ) {suite : Suite}
    (count : 0 < suite.evaluation.sampleCount) (s : Session φ κ) (reason : String) :
    (suite.evaluate c s).1 ≠ .error (.failed (.invalidSettings reason)) := by
  rw [evaluate, resultsAccuracy, if_neg (Nat.ne_of_gt count)]
  rcases Session.measureAll c suite.context _ _ s with ⟨(e | _) | records, s'⟩ <;>
    intro refused <;> cases refused

end Suite

/-- **Valid settings work.**  Let a configuration be accepted, and let a suite come about from it,
with any collaborators and in any session.  Then neither learning nor an evaluation is refused for
its settings.  Whatever the test, the discovery for it asks the solver for a sample at least once if
one could be built: with solvers that tell of each such call, whatever they tell, it comes to the
same and tells that many events more.  And it does not end for having reached its target without a
positive sample.  And a log accepts the level. -/
theorem HarnessConfig.valid_settings_work {config : HarnessConfig} {suite : Suite} {φ σ κ : Type}
    (accepted : config.validate = .ok ()) (built : suite.BuiltFrom config)
    (c : Collaborators φ σ κ) (s : Session φ κ) :
    (∀ reason, (suite.learnPreconditions c s).1 ≠ .error (.invalidSettings reason)) ∧
    (∀ reason, (suite.evaluate c s).1 ≠ .error (.failed (.invalidSettings reason))) ∧
    (∀ t, (∃ q, (c.create suite.context.grammar suite.context.formula
        (suite.context.solverOptions t) s.solvers).1 = .ok q) →
      ∃ asked, 1 ≤ asked ∧ ∀ mark,
        (s.discover (c.telling mark) suite.context t).1 = (s.discover c suite.context t).1 ∧
        (s.discover c suite.context t).2.TellsMore asked
          (s.discover (c.telling mark) suite.context t).2) ∧
    (∀ t d, (s.discover c suite.context t).1 = .ok d → d.stop = .targetReached →
      d.pools.positive ≠ []) ∧
    ∃ level, Level.parse config.logging.level = .ok level := by
  have valid := validate_eq_ok_iff.1 accepted
  obtain ⟨⟨verbose, settings⟩, evaluation⟩ := built.follows
  have retries : 0 < suite.context.settings.maxLearnerRetries := by
    rw [settings]
    exact valid.retries
  have tries : 0 < suite.context.settings.numTries := by
    rw [settings]
    exact valid.tries
  have samples : 0 < suite.context.settings.targetNumSamples := by
    rw [settings]
    exact valid.samples
  have count : 0 < suite.evaluation.sampleCount := by
    rw [evaluation]
    exact valid.count
  refine ⟨Suite.learnPreconditions_ne_invalidSettings c retries s,
    Suite.evaluate_ne_invalidSettings c count s, fun t built => ?_,
    fun t d found reached none => ?_, ?_⟩
  · have asked := List.length_pos_iff.2 (Session.draws_ne_nil tries built)
    exact ⟨_, asked, fun mark => Session.discover_telling mark c suite.context t s⟩
  · have enough := Session.target_le_positive found reached
    rw [none, List.length_nil] at enough
    omega
  · obtain ⟨level, same⟩ := valid.level
    exact ⟨level, by rw [same, Level.parse_name]⟩

/-- A configuration for one positive sample in two tries. -/
def smallConfig : HarnessConfig where
  suite := { targetNumSamples := 1, numTries := 2, maxLearnerRetries := 1 }
  evaluation := { sampleCount := 3 }
  logging := { level := "warn" }

/-- A suite from this configuration that watches for the letter a, and tells more. -/
def smallSuite : Suite :=
  ((Suite.ofConfig smallConfig letterGrammar none none).observe "letter" [isLetterA.condition] {}
    isLetterA.body).withVerbose true

/-- For the letter a the solver is asked, and the target is reached with a sample. -/
theorem HarnessConfig.valid_settings_work_letters :
    smallConfig.validate = .ok () ∧ smallSuite.BuiltFrom smallConfig ∧
    (∃ asked, 1 ≤ asked ∧ ∀ mark,
      (letterSession.discover (letterSource checkingScript.learner) smallSuite.context
        isLetterA).2.TellsMore asked
      (letterSession.discover ((letterSource checkingScript.learner).telling mark)
        smallSuite.context isLetterA).2) ∧
    ∃ d, (letterSession.discover (letterSource checkingScript.learner) smallSuite.context
        isLetterA).1 = .ok d ∧ d.stop = .targetReached ∧ d.pools.positive ≠ [] := by
  have accepted : smallConfig.validate = .ok () := rfl
  have built : smallSuite.BuiltFrom smallConfig :=
    .withVerbose (.observe (.ofConfig letterGrammar none none) _ _ _ _) true
  obtain ⟨-, -, asked, seeded, -⟩ := valid_settings_work accepted built
    (letterSource checkingScript.learner) letterSession
  have found : ∃ d, (letterSession.discover (letterSource checkingScript.learner)
      smallSuite.context isLetterA).1 = .ok d ∧ d.stop = .targetReached := ⟨_, rfl, rfl⟩
  obtain ⟨d, found, reached⟩ := found
  obtain ⟨number, some, told⟩ := asked isLetterA ⟨_, rfl⟩
  exact ⟨accepted, built, ⟨number, some, fun mark => (told mark).2⟩, d, found, reached,
    seeded isLetterA d found reached⟩

end PreconditionMining
