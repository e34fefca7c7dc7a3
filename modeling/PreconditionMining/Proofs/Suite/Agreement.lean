/-
# Pools agree with the oracle

A sample is filed by one verdict and asked about later, when other samples have been
classified, probes have been triggered and reset, and further tests have been
learned for.  None of this has a part in the verdict: a test whose triggers depend
on its input alone gives the same verdict in any two worlds in which its probes
are free (`verdict_of_free`).  The journal of a discovery ties each sample in its
pools to a verdict that was given while they were free, so the pools are confirmed
in each later session (`confirms_discover`).  A learning run only adds the pools of
discoveries, whatever comes between its attempts (`LearningRun.Made.confirms`).

A scripted learner that has the oracle confirm each positive sample then records
that all of them were confirmed, in each attempt and for a suite as a whole.
-/

import PreconditionMining.Learner.Scripted
import PreconditionMining.Proofs.Suite.Attempts
import PreconditionMining.Solver.Scripted
import PreconditionMining.Suite.Basic

namespace PreconditionMining

open Discovery

/-- A course of action that has nothing classified. -/
def Script.Plain : Script → Prop
  | .done => True
  | .trigger _ _ next => next.Plain
  | .classify _ _ _ => False

/-- The deeds of a plain course of action depend neither on the world nor on the registered
tests. -/
theorem Script.Plain.run : ∀ {s : Script}, s.Plain → ∃ deeds,
    ∀ (call : ObservedTest → String → World → Option Outcome) (register : List ObservedTest)
      (w : World), ∃ w', s.run call register w = some (w', deeds)
  | .done, _ => ⟨[], fun _ _ w => ⟨w, rfl⟩⟩
  | .trigger p times next, plain => by
    obtain ⟨deeds, ran⟩ := Script.Plain.run (s := next) plain
    refine ⟨.triggered p times :: deeds, fun call register w => ?_⟩
    obtain ⟨w', after⟩ := ran call register (w.trigger p times)
    exact ⟨w', by simp [Script.run, after]⟩

namespace ObservedTest

/-- **The triggers of a test depend on its input alone:** while its probes are held, the body, with
the bodies nested in it, triggers one of them or not whatever else is held and counted. -/
def TriggersByInput (register : List ObservedTest) (t : ObservedTest) : Prop :=
  ∀ input v w, (∀ p ∈ t.condition.leaves, v.inFlight p = true) →
    (∀ p ∈ t.condition.leaves, w.inFlight p = true) → ∀ p ∈ t.condition.leaves,
      Deed.happened (runBody register t input v).2 p =
        Deed.happened (runBody register t input w).2 p

/-- **A test among some tests is the same as a test among others:** they have a condition and
options in common, and while its probes are held, their bodies trigger the same of them on the same
input, whatever else is held and counted. -/
structure SameIn (register register' : List ObservedTest) (t t' : ObservedTest) : Prop where
  condition : t'.condition = t.condition
  options : t'.options = t.options
  triggers : ∀ input v w, (∀ p ∈ t.condition.leaves, v.inFlight p = true) →
    (∀ p ∈ t.condition.leaves, w.inFlight p = true) → ∀ p ∈ t.condition.leaves,
      Deed.happened (runBody register t input v).2 p =
        Deed.happened (runBody register' t' input w).2 p

variable {register register' : List ObservedTest} {t t' : ObservedTest}

/-- The triggers of a test depend on its input alone when and only when it is the same as itself. -/
theorem sameIn_self : t.SameIn register register t ↔ t.TriggersByInput register :=
  ⟨fun same => same.triggers, fun byInput => ⟨rfl, rfl, byInput⟩⟩

/-- A test whose body has nothing classified is the same wherever it is registered, by whatever
name and number. -/
theorem sameIn_of_plain (plain : ∀ input, (t.body input).Plain)
    (condition : t'.condition = t.condition) (options : t'.options = t.options)
    (body : t'.body = t.body) : t.SameIn register register' t' where
  condition := condition
  options := options
  triggers input v w _ _ p _ := by
    obtain ⟨deeds, ran⟩ := (plain input).run
    obtain ⟨v', ranV⟩ := ran (fun s i v => some (classify register s i v)) register v
    obtain ⟨w', ranW⟩ := ran (fun s i v => some (classify register' s i v)) register' w
    rw [runBody, runBody, body, ranV, ranW]
    rfl

/-- The triggers of a test whose body has nothing classified depend on its input alone. -/
theorem triggersByInput_of_plain (register : List ObservedTest) {t : ObservedTest}
    (plain : ∀ input, (t.body input).Plain) : t.TriggersByInput register :=
  sameIn_self.1 (sameIn_of_plain plain rfl rfl rfl)

/-- **Free worlds make no difference to a verdict,** nor does it matter among which tests a test is
registered. -/
theorem SameIn.verdict_of_free (same : t.SameIn register register' t') (input : String)
    {v w : World} (freeV : t.Free v) (freeW : t.Free w) :
    (classify register t input v).verdict = (classify register' t' input w).verdict := by
  obtain ⟨o, v', atV⟩ := freeV.granted
  obtain ⟨o', w', atW⟩ := freeW.granted
  obtain ⟨deedsV, verdictV⟩ := classify_of_granted register t input atV
  obtain ⟨deedsW, verdictW⟩ := classify_of_granted register' t' input (same.condition ▸ atW)
  rw [verdictV, verdictW, deedsV, deedsW, same.condition]
  exact congrArg Except.ok (Condition.eval_congr _ (same.triggers input v' w'
    (Condition.inFlight_observe_leaf atV) (Condition.inFlight_observe_leaf atW)))

end ObservedTest

namespace Session

variable {φ σ κ : Type} {c : Collaborators φ σ κ} {ctx : Context} {t : ObservedTest}

/-- The oracle of a test says of the samples in pools what the pools say. -/
def Confirms (s : Session φ κ) (ctx : Context) (t : ObservedTest) (pools : Pools) : Prop :=
  (∀ sample ∈ pools.positive, (s.classify ctx t sample).1 = .ok true) ∧
    ∀ sample ∈ pools.negative, (s.classify ctx t sample).1 = .ok false

theorem confirms_empty (s : Session φ κ) : s.Confirms ctx t .empty := by
  simp [Confirms, Pools.empty]

theorem Confirms.append {s : Session φ κ} {p q : Pools} (hp : s.Confirms ctx t p)
    (hq : s.Confirms ctx t q) : s.Confirms ctx t (p ++ q) :=
  ⟨fun sample mem => (List.mem_append.1 mem).elim (hp.1 sample) (hq.1 sample),
    fun sample mem => (List.mem_append.1 mem).elim (hp.2 sample) (hq.2 sample)⟩

/-- A verdict that was given once is given whenever the test is free. -/
theorem classify_again (byInput : t.TriggersByInput ctx.register) {sample : Tree} {triggered : Bool}
    {s later : Session φ κ} (before : (s.classify ctx t sample).1 = .ok triggered)
    (free : t.Free later.world) : (later.classify ctx t sample).1 = .ok triggered := by
  have freeThen : t.Free s.world := ObservedTest.verdict_isOk_iff.1 ⟨triggered, before⟩
  have same := ObservedTest.sameIn_self.2 byInput
  exact (same.verdict_of_free (ctx.input sample) free freeThen).trans before

/-- **The pools of a discovery are confirmed in each session in which the test is free.** -/
theorem confirms_discover (byInput : t.TriggersByInput ctx.register) {s : Session φ κ}
    {d : Discovery} (found : (s.discover c ctx t).1 = .ok d) {later : Session φ κ}
    (free : t.Free later.world) : later.Confirms ctx t d.pools := by
  rcases built : (s.note (.discovering t.name t.condition.description)).create c ctx ctx.formula
    (ctx.solverOptions t) with ⟨e | q, s'⟩
  · rw [discover] at found
    simp only [built] at found
    obtain rfl := Except.ok.inj found
    exact later.confirms_empty
  · rw [discover_of_built built] at found
    obtain ⟨exploration, ws, whole, genuine, course⟩ :=
      exists_course (sampler c ctx t) ctx.settings (q, s')
    have pooled := (course.filing.files d.pools (by rw [show (run _ _ _).1 = _ from found]; rfl)).2
    rw [Pools.empty_append, ← whole] at pooled
    -- a verdict in the journal was given in some session, and the test was free there
    have again : ∀ sample triggered, .judged sample (.ok triggered) ∈
        journal (sampler c ctx t) ctx.settings (q, s') →
          (later.classify ctx t sample).1 = .ok triggered := by
      intro sample triggered mem
      obtain ⟨⟨q', s''⟩, given⟩ := genuine _ mem
      exact classify_again byInput given free
    rw [pooled]
    exact ⟨fun sample mem => again sample true (Journal.mem_filed.1 mem),
      fun sample mem => again sample false (Journal.mem_filed.1 mem)⟩

end Session

namespace LearningRun

variable {φ σ κ : Type} {c : Collaborators φ σ κ} {ctx : Context} {t : ObservedTest}

/-- The runs for a test that come about with any number of attempts, each of them made in any
session. -/
inductive Made (c : Collaborators φ σ κ) (ctx : Context) (t : ObservedTest) : LearningRun → Prop
  | start : Made c ctx t (LearningRun.start ctx t)
  | next {r : LearningRun} (s : Session φ κ) (made : Made c ctx t r) :
      Made c ctx t (r.next c ctx s).2.1

/-- An attempt keeps what is confirmed. -/
theorem confirms_attempt (byInput : t.TriggersByInput ctx.register) {r : LearningRun}
    (own : r.test = t) {later : Session φ κ} (free : t.Free later.world)
    (before : later.Confirms ctx t r.pools) (s : Session φ κ) :
    later.Confirms ctx t (r.attempt c ctx s).2.1.pools := by
  subst own
  rcases attempt_pools c ctx r s with same | ⟨d, found, more⟩
  · rw [same]
    exact before
  · rw [more]
    exact before.append (Session.confirms_discover byInput found free)

/-- **What a run has accumulated is confirmed in each session in which the test is free.** -/
theorem Made.confirms (byInput : t.TriggersByInput ctx.register) {r : LearningRun}
    (made : Made c ctx t r) :
    r.test = t ∧ ∀ later : Session φ κ, t.Free later.world → later.Confirms ctx t r.pools := by
  induction made with
  | start => exact ⟨rfl, fun later _ => later.confirms_empty⟩
  | @next r s made ih =>
    rw [LearningRun.next]
    split
    · exact ih
    · exact ⟨(attempt_counts c ctx r s).1.trans ih.1,
        fun later free => confirms_attempt byInput ih.1 free (ih.2 later free) s⟩

end LearningRun

/-- Questions that are all answered with yes are all counted. -/
theorem Dialogue.run_askAll {α ς : Type} {partner : Partner ς} {good : ς → Prop}
    {next : Except ConditionError Nat → Dialogue α} {samples : List Tree}
    (yes : ∀ sample ∈ samples, ∀ s, good s →
      (partner.ask sample s).1 = .ok true ∧ good (partner.ask sample s).2)
    (confirmed : Nat) {s : ς} (h : good s) :
    ∃ s', good s' ∧ (askAll samples confirmed next).run partner s =
      (next (.ok (confirmed + samples.length))).run partner s' := by
  induction samples generalizing confirmed s with
  | nil => exact ⟨s, h, rfl⟩
  | cons sample rest ih =>
    obtain ⟨said, h'⟩ := yes sample List.mem_cons_self s h
    obtain ⟨s', good', same⟩ :=
      ih (fun t mem => yes t (List.mem_cons_of_mem _ mem)) (confirmed + 1) h'
    refine ⟨s', good', ?_⟩
    rw [askAll, run]
    simp only [said, if_true]
    rw [same, List.length_cons, Nat.add_assoc, Nat.add_comm 1]

/-- The same collaborators with another learner. -/
def Collaborators.withLearner {φ σ κ κ' : Type} (c : Collaborators φ σ κ) (learner : Learner κ') :
    Collaborators φ σ κ' where
  create := c.create
  solver := c.solver
  learner := learner

/-- The record of a call whose positive samples were all confirmed. -/
def LearnerCall.ofConfirmed (t : ObservedTest) (pools : Pools) : LearnerCall :=
  ⟨pools.sizes, (t.options.learner.getD {}).activatedPatterns, some pools.positive.length⟩

/-- All records of calls behind those of an earlier time are such that each positive sample was
confirmed. -/
def Session.ConfirmedSince {φ : Type} (s : Session φ (List LearnerCall))
    (earlier : List LearnerCall) : Prop :=
  ∃ calls, s.learner = earlier ++ calls ∧
    ∀ call ∈ calls, call.confirmed = some call.sizes.positive

section Scripted

variable {φ σ κ : Type} {c : Collaborators φ σ κ} {ctx : Context} {t : ObservedTest}
  {script : LearnerScript}

/-- A scripted learner that checks the oracle records one call, with all positive samples
confirmed. -/
theorem Session.learner_learn (checks : script.checksOracle = true) {pools : Pools}
    {s : Session φ (List LearnerCall)} (free : t.Free s.world)
    (agree : ∀ later : Session φ (List LearnerCall), t.Free later.world →
      later.Confirms ctx t pools) :
    (s.learn (c.withLearner script.learner) ctx t pools).2.learner =
      s.learner ++ [.ofConfirmed t pools] := by
  have yes : ∀ sample ∈ pools.positive, ∀ s : Session φ (List LearnerCall), t.Free s.world →
      ((partner ctx t).ask sample s).1 = .ok true ∧
        t.Free ((partner ctx t).ask sample s).2.world :=
    fun sample mem s free =>
      ⟨(agree s free).1 sample mem, free.congr (inFlight_classify ctx t sample s)⟩
  rw [learn]
  simp only [Collaborators.withLearner, LearnerScript.learner, checks, if_true]
  obtain ⟨s', -, same⟩ := Dialogue.run_askAll yes 0 free
  rw [same]
  simp [Dialogue.run, LearnerScript.reply, LearnerCall.ofConfirmed]

/-- An attempt with such a learner records one call more, for the pools that the run then has. -/
theorem LearningRun.learner_attempt (byInput : t.TriggersByInput ctx.register)
    (checks : script.checksOracle = true) {r : LearningRun} (own : r.test = t)
    (agree : ∀ later : Session φ (List LearnerCall), t.Free later.world →
      later.Confirms ctx t r.pools)
    {s : Session φ (List LearnerCall)} (free : t.Free s.world) :
    (r.attempt (c.withLearner script.learner) ctx s).2.2.learner =
      s.learner ++ [.ofConfirmed t (r.attempt (c.withLearner script.learner) ctx s).2.1.pools] := by
  subst own
  obtain ⟨d, s', discovered, kept, held⟩ :=
    Session.discover_of_free (c.withLearner script.learner) ctx free
  have agree' : ∀ later : Session φ (List LearnerCall), r.test.Free later.world →
      later.Confirms ctx r.test (r.pools ++ d.pools) := fun later free =>
    (agree later free).append (Session.confirms_discover byInput (by rw [discovered]) free)
  have recorded : (candidates (c.withLearner script.learner) ctx
      { r with made := r.made + 1, pools := r.pools ++ d.pools } s').2.learner =
        s.learner ++ [.ofConfirmed r.test (r.pools ++ d.pools)] := by
    rw [(candidates_after _ ctx _ s').2, ← kept]
    exact Session.learner_learn checks (free.congr held) agree'
  rw [attempt]
  simp only [discovered]
  rcases named : candidates (c.withLearner script.learner) ctx
      { r with made := r.made + 1, pools := r.pools ++ d.pools } s'
    with ⟨e | found, s''⟩ <;> rw [named] at recorded <;> exact recorded

/-- **Learning for several tests with such a learner adds records of full confirmation only.** -/
theorem Session.confirmed_learnTests (c : Collaborators φ σ κ) (checks : script.checksOracle = true)
    {ts : List ObservedTest} (byInput : ∀ u ∈ ts, u.TriggersByInput ctx.register)
    {s : Session φ (List LearnerCall)} (free : ∀ u ∈ ts, u.Free s.world) :
    (learnTests (c.withLearner script.learner) ctx ts s).2.2.ConfirmedSince s.learner := by
  refine (learnTests_keeps (fun z => (∀ u ∈ ts, u.Free z.world) ∧ z.ConfirmedSince s.learner)
    (fun t mem => ⟨fun r => r.test = t ∧ ∀ later : Session φ (List LearnerCall),
      t.Free later.world → later.Confirms ctx t r.pools, ⟨?_, ?_, ?_⟩, rfl, ?_⟩)
    ⟨free, [], by simp⟩).2
  · exact fun _ _ h => h
  · exact fun _ _ h => h
  · rintro r z ⟨own, agree⟩ ⟨free, calls, same, confirmed⟩
    have recorded := LearningRun.learner_attempt (c := c) (byInput t mem) checks own agree
      (free t mem)
    refine ⟨⟨(LearningRun.attempt_counts _ ctx r z).1.trans own, fun later free =>
        LearningRun.confirms_attempt (byInput t mem) own free (agree later free) z⟩,
      fun u mem => (free u mem).congr (LearningRun.inFlight_attempt _ ctx r z), ?_⟩
    refine ⟨calls ++ [_], by rw [recorded, same, List.append_assoc], fun call mem => ?_⟩
    rcases List.mem_append.1 mem with earlier | last
    · exact confirmed call earlier
    · obtain rfl := List.mem_singleton.1 last
      rfl
  · exact fun later _ => later.confirms_empty

end Scripted

/-- **Pools agree with the oracle.**  Let the triggers of a test depend on its input alone, and let
collaborators, settings and the other tests be whatever they are.  A discovery for the test succeeds
where the test is free.  What any discovery has filed, and what a learning run has accumulated with
any number of attempts, is classified as it was filed in each session in which the test is free,
whatever has happened in between.  So a scripted learner that checks the oracle records in each
attempt that the oracle confirmed each positive sample, and no other records come about while a suite
of such tests is learned for. -/
theorem pools_agree_with_oracle {φ σ κ : Type} (c : Collaborators φ σ κ) (ctx : Context)
    (t : ObservedTest) (byInput : t.TriggersByInput ctx.register) :
    (∀ s : Session φ κ, t.Free s.world → ∃ d, (s.discover c ctx t).1 = .ok d) ∧
    (∀ (s : Session φ κ) (d : Discovery), (s.discover c ctx t).1 = .ok d →
      ∀ later : Session φ κ, t.Free later.world → later.Confirms ctx t d.pools) ∧
    (∀ r, LearningRun.Made c ctx t r →
      ∀ later : Session φ κ, t.Free later.world → later.Confirms ctx t r.pools) ∧
    ∀ script : LearnerScript, script.checksOracle = true →
      (∀ r, LearningRun.Made (c.withLearner script.learner) ctx t r →
        ∀ s : Session φ (List LearnerCall), t.Free s.world →
          let out := r.attempt (c.withLearner script.learner) ctx s
          out.2.2.learner = s.learner ++ [.ofConfirmed t out.2.1.pools]) ∧
      ∀ (suite : Suite) (s : Session φ (List LearnerCall)),
        (∀ u ∈ suite.tests, u.TriggersByInput suite.context.register ∧ u.Free s.world) →
          let out := suite.learnPreconditions (c.withLearner script.learner) s
          out.2.2.ConfirmedSince s.learner := by
  refine ⟨fun s free => Session.discover_isOk c ctx free,
    fun s d found later free => Session.confirms_discover byInput found free,
    fun r made => (made.confirms byInput).2, fun script checks => ⟨fun r made s free => ?_,
    fun suite s each => ?_⟩⟩
  · obtain ⟨own, agree⟩ := made.confirms byInput
    exact LearningRun.learner_attempt byInput checks own agree free
  · have learned := Session.confirmed_learnTests c checks
      (s := s.note (.learningSuite suite.tests.length)) (fun u mem => (each u mem).1)
      fun u mem => (each u mem).2
    dsimp only
    rw [Suite.learnPreconditions]
    split
    · exact ⟨[], by simp [Session.note]⟩
    · rcases out : Session.learnTests (c.withLearner script.learner) suite.context suite.tests
        (s.note (.learningSuite suite.tests.length)) with ⟨results, _ | e, s'⟩ <;>
        rw [out] at learned <;> exact learned

/-- The letters a and b. -/
def letterGrammar : Grammar where
  rules := .ofList [("<start>", ["a", "b"])]
  bracketed := by decide
  nonempty := by decide
  hasStart := by decide

/-- A test that asks for the letter a. -/
def isLetterA : ObservedTest where
  id := 0
  name := "letter"
  condition := .leaf ⟨0, "is a"⟩
  body input := if input = "a" then .trigger ⟨0, "is a"⟩ 1 .done else .done

/-- A context in which discovery draws two samples. -/
def letterContext : Context where
  grammar := letterGrammar
  formula := none
  settings := { targetNumSamples := 1, numTries := 2 }
  register := [isLetterA]

/-- Solvers that give both letters, with a learner. -/
def letterSource {κ : Type} (learner : Learner κ) : Collaborators Unit ScriptedSolver κ where
  create _ _ _ s := (.ok (.start { samples := [.ok (.terminal "a"), .ok (.terminal "b")] }), s)
  solver := ScriptedSolver.solver
  learner := learner

/-- A session in which nothing has happened. -/
def letterSession : Session Unit (List LearnerCall) where
  world := .initial
  solvers := ()
  learner := []

/-- A learner that checks the oracle and names nothing. -/
def checkingScript : LearnerScript := { checksOracle := true }

/-- Both letters are discovered, confirmed later, and recorded as confirmed. -/
theorem pools_agree_with_oracle_letters :
    isLetterA.TriggersByInput letterContext.register ∧ isLetterA.Free letterSession.world ∧
    checkingScript.checksOracle = true ∧
    (∃ d, (letterSession.discover (letterSource checkingScript.learner) letterContext
        isLetterA).1 = .ok d ∧
      d.pools = ⟨[.terminal "a"], [.terminal "b"]⟩ ∧
      letterSession.Confirms letterContext isLetterA d.pools) ∧
    (((LearningRun.start letterContext isLetterA).attempt (letterSource checkingScript.learner)
      letterContext letterSession).2.2.learner = [⟨⟨1, 1⟩, none, some 1⟩]) := by
  have byInput : isLetterA.TriggersByInput letterContext.register :=
    ObservedTest.triggersByInput_of_plain _ fun input => by
      by_cases a : input = "a" <;> simp [isLetterA, a, Script.Plain]
  have free : isLetterA.Free letterSession.world := fun _ _ => rfl
  obtain ⟨-, filed, -, checked⟩ := pools_agree_with_oracle (letterSource checkingScript.learner)
    letterContext isLetterA byInput
  obtain ⟨recorded, -⟩ := checked checkingScript rfl
  refine ⟨byInput, free, rfl, ⟨_, rfl, by decide +kernel, filed letterSession _ rfl _ free⟩, ?_⟩
  rw [show ((LearningRun.start letterContext isLetterA).attempt
    (letterSource checkingScript.learner) letterContext letterSession).2.2.learner = _ from
      recorded _ .start letterSession free]
  rfl

end PreconditionMining
