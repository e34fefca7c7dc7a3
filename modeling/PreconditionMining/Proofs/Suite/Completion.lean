/-
# Only misuse escapes a suite

Solvers that cannot be built, solvers that refuse and learners that fail are all
taken in by a suite: they leave a test without samples, an attempt without
candidates or a precondition without a measurement.  What makes learning fail is a
misuse of conditions, which is a classification of a test while one of its probes is
held.  Where the tests are free when learning begins, only the learner can bring this
about, by watching a condition itself and asking its oracle meanwhile.

A learner that blames the oracle only when the oracle failed (`BlamesOracle`), and
that asks for no verdict while it watches probes of the test (`AsksUnheld`), is never
refused (`asked_isOk`).  Then each attempt succeeds (`attempt_isOk`), each test has a
result, and so learning completes.  A learner that only blames justly is not enough
(`learning_fails_while_watched`).
-/

import PreconditionMining.Proofs.Suite.Agreement
import PreconditionMining.Proofs.Suite.Measuring

namespace PreconditionMining

/-- Two conditions have a probe in common. -/
def Condition.Overlaps (c d : Condition) : Prop := ∃ p ∈ c.leaves, ∃ q ∈ d.leaves, p.id = q.id

/-- A test remains free when a condition is observed that has no probe in common with its own. -/
theorem ObservedTest.Free.observe {t : ObservedTest} {c : Condition} {w w' : World}
    {o : Observation} (h : t.Free w) (granted : c.observe w = (.ok o, w'))
    (apart : ¬ c.Overlaps t.condition) : t.Free w' := by
  intro q hq
  rw [(Condition.observe_ok granted).2.2 q, h q hq, Bool.false_or, decide_eq_false]
  intro mem
  obtain ⟨p, hp, same⟩ := List.mem_map.1 ((Condition.mem_ids_probes c).1 mem)
  exact apart ⟨p, hp, q, hq, same⟩

namespace Dialogue

/-- What a dialogue asks of its partner, with the answer. -/
inductive Exchange
  | asked (sample : Tree) (verdict : Except ConditionError Bool)
  | watched (condition : Condition) (answer : Except ConditionError Unit)

variable {α ς : Type}

/-- The exchanges of a dialogue, the earliest first. -/
def exchanges (partner : Partner ς) : Dialogue α → ς → List Exchange
  | answer _, _ => []
  | ask sample next, s =>
    let (verdict, s) := partner.ask sample s
    .asked sample verdict :: exchanges partner (next verdict) s
  | watch condition next, s =>
    match partner.observe condition s with
    | (.error e, s) => .watched condition (.error e) :: exchanges partner (next (.error e)) s
    | (.ok _, s) => .watched condition (.ok ()) :: exchanges partner (next (.ok ())) s

/-- Once a condition is watched that has a probe in common with another one, nothing is asked. -/
def Unheld (other : Condition) (said : List Exchange) : Prop :=
  ∀ earlier condition later, said = earlier ++ .watched condition (.ok ()) :: later →
    condition.Overlaps other → ∀ sample verdict, .asked sample verdict ∉ later

theorem Unheld.tail {other : Condition} {x : Exchange} {said : List Exchange}
    (h : Unheld other (x :: said)) : Unheld other said :=
  fun earlier condition later same => h (x :: earlier) condition later (by rw [same]; rfl)

/-- Questions about several samples are all answered, unless the answer to one of them is a
failure. -/
theorem askAll_answered (partner : Partner ς) (next : Except ConditionError Nat → Dialogue α) :
    ∀ (samples : List Tree) (confirmed : Nat) (s : ς),
      (∃ sample e, .asked sample (.error e) ∈ (askAll samples confirmed next).exchanges partner s) ∨
        ∃ k s', (askAll samples confirmed next).run partner s = (next (.ok k)).run partner s'
  | [], confirmed, s => .inr ⟨confirmed, s, rfl⟩
  | sample :: rest, confirmed, s => by
    rw [askAll, exchanges, run]
    rcases partner.ask sample s with ⟨e | triggered, s'⟩
    · exact .inl ⟨sample, e, List.mem_cons_self⟩
    · rcases askAll_answered partner next rest (if triggered then confirmed + 1 else confirmed) s'
        with ⟨sample', e, failed⟩ | answered
      · exact .inl ⟨sample', e, List.mem_cons_of_mem _ failed⟩
      · exact .inr answered

/-- While questions about several samples are asked, nothing is watched. -/
theorem unheld_askAll (other : Condition) (partner : Partner ς)
    {next : Except ConditionError Nat → Dialogue α}
    (silent : ∀ r s, (next r).exchanges partner s = []) (samples : List Tree) (confirmed : Nat)
    (s : ς) : Unheld other ((askAll samples confirmed next).exchanges partner s) := by
  have onlyAsked : ∀ x ∈ (askAll samples confirmed next).exchanges partner s,
      ∃ sample verdict, x = .asked sample verdict := by
    induction samples generalizing confirmed s with
    | nil =>
      rw [askAll, silent]
      exact fun x mem => absurd mem List.not_mem_nil
    | cons sample rest ih =>
      rw [askAll, exchanges]
      rcases partner.ask sample s with ⟨e | triggered, s'⟩ <;> intro x mem <;>
        rcases List.mem_cons.1 mem with rfl | later
      · exact ⟨sample, _, rfl⟩
      · simp only [silent] at later
        cases later
      · exact ⟨sample, _, rfl⟩
      · exact ih _ s' x later
  intro earlier condition later same
  obtain ⟨sample, verdict, eq⟩ := onlyAsked (.watched condition (.ok ()))
    (same ▸ List.mem_append_right _ List.mem_cons_self)
  cases eq

end Dialogue

namespace Session

open Dialogue

variable {φ σ κ : Type}

/-- **Questions are answered where they are asked unheld:** in a session in which the test is free,
and where nothing is asked while the dialogue itself holds a probe of the test. -/
theorem asked_isOk {α : Type} {ctx : Context} {t : ObservedTest} :
    ∀ (d : Dialogue α) (s : Session φ κ), t.Free s.world →
      Unheld t.condition (d.exchanges (partner ctx t) s) →
        ∀ sample e, .asked sample (.error e) ∉ d.exchanges (partner ctx t) s
  | .answer _, _, _, _ => fun _ _ mem => nomatch mem
  | .ask sample next, s, free, unheld => by
    obtain ⟨triggered, s', judged, same⟩ := classify_of_free ctx free sample
    have said : (partner ctx t).ask sample s = (.ok triggered, s') := judged
    rw [exchanges, said] at unheld ⊢
    have later := asked_isOk (next (.ok triggered)) s' (free.congr same) unheld.tail
    intro sample' e mem
    rcases List.mem_cons.1 mem with here | there
    · cases here
    · exact later sample' e there
  | .watch condition next, s, free, unheld => by
    rw [exchanges] at unheld ⊢
    rcases observed : condition.observe s.world with ⟨e | o, w⟩
    · simp only [partner, observed] at unheld ⊢
      have later := asked_isOk (next (.error e)) { s with world := w }
        (free.congr (Condition.inFlight_observe_error observed)) unheld.tail
      intro sample e' mem
      rcases List.mem_cons.1 mem with here | there
      · cases here
      · exact later sample e' there
    · simp only [partner, observed] at unheld ⊢
      intro sample e' mem
      rcases List.mem_cons.1 mem with here | there
      · cases here
      -- what is watched now either leaves the test free or is the last thing before the answer
      · by_cases overlap : condition.Overlaps t.condition
        · exact unheld [] condition _ rfl overlap sample _ there
        · exact asked_isOk (next (.ok ())) { s with world := w } (free.observe observed overlap)
            unheld.tail sample e' there

/-- The exchanges of a learner that is asked about a test. -/
def exchanges (c : Collaborators φ σ κ) (ctx : Context) (t : ObservedTest) (pools : Pools)
    (s : Session φ κ) : List Exchange :=
  (c.learner.learn ⟨ctx.grammar, pools, t.options.learner.getD {}⟩ s.learner).exchanges
    (partner ctx t) s

end Session

namespace Collaborators

open Dialogue

variable {φ σ κ : Type}

/-- **The learner blames the oracle only when the oracle failed:** wherever the registered tests are
free, a dialogue that ends with the oracle's misuse has had a failure for an answer. -/
def BlamesOracle (c : Collaborators φ σ κ) (ctx : Context) : Prop :=
  ∀ t ∈ ctx.register, ∀ (pools : Pools) (s : Session φ κ),
    (∀ u ∈ ctx.register, u.Free s.world) → ∀ e, (s.learn c ctx t pools).1 = .error (.oracle e) →
      ∃ sample e', .asked sample (.error e') ∈ s.exchanges c ctx t pools

/-- **The learner asks unheld:** wherever the registered tests are free, a dialogue about a test asks
for no verdict while it watches a condition that has a probe in common with that of the test. -/
def AsksUnheld (c : Collaborators φ σ κ) (ctx : Context) : Prop :=
  ∀ t ∈ ctx.register, ∀ (pools : Pools) (s : Session φ κ),
    (∀ u ∈ ctx.register, u.Free s.world) → Unheld t.condition (s.exchanges c ctx t pools)

end Collaborators

section Attempts

variable {φ σ κ : Type} {c : Collaborators φ σ κ} {ctx : Context}

/-- Such a learner never reports a misuse. -/
theorem Session.learn_ne_oracle (blames : c.BlamesOracle ctx) (unheld : c.AsksUnheld ctx)
    {t : ObservedTest} (mem : t ∈ ctx.register) (pools : Pools) {s : Session φ κ}
    (free : ∀ u ∈ ctx.register, u.Free s.world) (e : ConditionError) :
    (s.learn c ctx t pools).1 ≠ .error (.oracle e) := by
  intro failed
  obtain ⟨sample, e', refused⟩ := blames t mem pools s free e failed
  exact asked_isOk _ s (free t mem) (unheld t mem pools s free) sample e' refused

/-- Only a misuse makes the learning of candidates fail. -/
theorem LearningRun.candidates_isOk {r : LearningRun} {s : Session φ κ}
    (never : ∀ e, (s.learn c ctx r.test r.pools).1 ≠ .error (.oracle e)) :
    ∃ found, (r.candidates c ctx s).1 = .ok found := by
  rw [candidates]
  rcases learned : s.learn c ctx r.test r.pools with ⟨(e | reason) | found, s'⟩
  · exact absurd (by rw [learned]) (never e)
  · exact ⟨[], rfl⟩
  · exact ⟨found, rfl⟩

/-- **An attempt for a registered test succeeds where the tests are free.** -/
theorem LearningRun.attempt_isOk (blames : c.BlamesOracle ctx) (unheld : c.AsksUnheld ctx)
    {r : LearningRun} (mem : r.test ∈ ctx.register) {s : Session φ κ}
    (free : ∀ u ∈ ctx.register, u.Free s.world) : ∃ a, (r.attempt c ctx s).1 = .ok a := by
  obtain ⟨d, s', discovered, -, same⟩ := Session.discover_of_free c ctx (free r.test mem)
  obtain ⟨candidates, named⟩ := candidates_isOk
    (r := { r with made := r.made + 1, pools := r.pools ++ d.pools })
    (Session.learn_ne_oracle blames unheld mem (r.pools ++ d.pools)
      fun u hu => (free u hu).congr same)
  rw [attempt]
  simp only [discovered]
  rcases out : LearningRun.candidates c ctx
    { r with made := r.made + 1, pools := r.pools ++ d.pools } s' with ⟨answer, s''⟩
  rw [out] at named
  subst named
  exact ⟨_, rfl⟩

end Attempts

/-- At least one attempt was made, no more than are allowed, and where nothing was learned all that
are allowed. -/
structure TestResult.WithinRetries (retries : Nat) (result : TestResult) : Prop where
  made : 1 ≤ result.attempts
  allowed : result.attempts ≤ retries
  spent : result.preconditions = [] → result.attempts = retries

namespace Session

variable {φ σ κ : Type} {c : Collaborators φ σ κ} {ctx : Context}

/-- **Learning for a registered test gives a result where the tests are free,** and leaves held what
is held. -/
theorem learnTest_of_free (blames : c.BlamesOracle ctx) (unheld : c.AsksUnheld ctx)
    (retries : 1 ≤ ctx.settings.maxLearnerRetries) {t : ObservedTest} (mem : t ∈ ctx.register)
    {s : Session φ κ} (free : ∀ u ∈ ctx.register, u.Free s.world) :
    ∃ result s', s.learnTest c ctx t = (.ok result, s') ∧ result.test = t ∧
      result.WithinRetries ctx.settings.maxLearnerRetries ∧
        ∀ q, s'.world.inFlight q = s.world.inFlight q := by
  obtain ⟨items, r, s', course, same⟩ := learnTest_eq c ctx t s
  have keeps := LearningRun.keeps_inFlight c ctx t s.world
  obtain ⟨after, made⟩ := course.keeps keeps rfl fun _ => rfl
  -- each attempt is made where the same probes are held as now, so that it succeeds
  have smooth : ∀ e, .error e ∉ items := by
    intro e failed
    obtain ⟨v, z, rfl, held, failed⟩ := made _ failed
    obtain ⟨a, ok⟩ := LearningRun.attempt_isOk blames unheld mem
      fun u hu => (free u hu).congr held
    rw [ok] at failed
    cases failed
  obtain ⟨number, found, last, -, bounds⟩ := course.exists_last smooth (0, [])
  have attempted : items ≠ [] := by
    rintro rfl
    cases course with
    | spent used => exact absurd (Nat.le_trans retries used) (Nat.not_succ_le_zero 0)
  obtain ⟨later, allowed, spent⟩ := bounds attempted
  rw [same, last]
  refine ⟨_, _, rfl, rfl, ⟨later, allowed, fun none => spent (List.map_eq_nil_iff.1 none)⟩, ?_⟩
  exact tellLearned_keeps keeps.note after number found

/-- **Learning for registered tests gives a result for each of them,** in order. -/
theorem learnTests_of_free (blames : c.BlamesOracle ctx) (unheld : c.AsksUnheld ctx)
    (retries : 1 ≤ ctx.settings.maxLearnerRetries) :
    ∀ (ts : List ObservedTest), (∀ t ∈ ts, t ∈ ctx.register) → ∀ {s : Session φ κ},
      (∀ u ∈ ctx.register, u.Free s.world) →
        ∃ results s', learnTests c ctx ts s = (results, none, s') ∧ results.map (·.test) = ts ∧
          (∀ r ∈ results, r.WithinRetries ctx.settings.maxLearnerRetries) ∧
            ∀ q, s'.world.inFlight q = s.world.inFlight q
  | [], _, s, _ => ⟨[], s, rfl, rfl, fun _ mem => (nomatch mem), fun _ => rfl⟩
  | t :: ts, registered, s, free => by
    obtain ⟨result, s', learned, own, within, same⟩ :=
      learnTest_of_free blames unheld retries (registered t List.mem_cons_self) free
    obtain ⟨results, s'', later, tied, all, same'⟩ := learnTests_of_free blames unheld retries ts
      (fun u mem => registered u (List.mem_cons_of_mem _ mem))
      fun u hu => (free u hu).congr same
    rw [learnTests]
    simp only [learned, later]
    refine ⟨_, s'', rfl, by rw [List.map_cons, own, tied], fun r mem => ?_,
      fun q => (same' q).trans (same q)⟩
    rcases List.mem_cons.1 mem with rfl | mem
    · exact within
    · exact all r mem

end Session

section Scripted

open Dialogue

variable {φ σ κ : Type}

/-- A scripted learner gives a reason of its own for a failure. -/
theorem LearnerScript.reply_ne_oracle (script : LearnerScript) (request : LearningRequest)
    (confirmed : Option Nat) (calls : List LearnerCall) (e : ConditionError) :
    (script.reply request confirmed calls).1 ≠ .error (.oracle e) := by
  rw [reply]
  cases script.failure <;> simp

/-- A scripted learner blames the oracle only when the oracle failed. -/
theorem Collaborators.blamesOracle_script (c : Collaborators φ σ κ) (ctx : Context)
    (script : LearnerScript) : (c.withLearner script.learner).BlamesOracle ctx := by
  intro t _ pools s _ e failed
  rw [Session.learn] at failed
  rw [Session.exchanges]
  by_cases checks : script.checksOracle = true
  · simp only [withLearner, LearnerScript.learner, checks, if_true] at failed ⊢
    rcases askAll_answered (Session.partner ctx t) _ pools.positive 0 s with refused | ⟨k, s', same⟩
    · exact refused
    · rw [same] at failed
      exact absurd failed (script.reply_ne_oracle _ _ _ e)
  · simp only [withLearner, LearnerScript.learner, checks] at failed
    exact absurd failed (script.reply_ne_oracle _ _ _ e)

/-- A scripted learner watches nothing. -/
theorem Collaborators.asksUnheld_script (c : Collaborators φ σ κ) (ctx : Context)
    (script : LearnerScript) : (c.withLearner script.learner).AsksUnheld ctx := by
  intro t _ pools s _
  rw [Session.exchanges]
  by_cases checks : script.checksOracle = true
  · simp only [withLearner, LearnerScript.learner, checks, if_true]
    exact unheld_askAll _ _ (fun r _ => by cases r <;> rfl) _ _ s
  · simp only [withLearner, LearnerScript.learner, checks]
    exact fun earlier _ _ same => by cases earlier <;> cases same

/-- A learner that watches the condition of a registered test, and then does as its script says,
blames the oracle only when the oracle failed. -/
theorem Collaborators.blamesOracle_watching (c : Collaborators φ σ κ) {ctx : Context}
    {u : ObservedTest} (registered : u ∈ ctx.register) {script : LearnerScript}
    (quiet : script.checksOracle = false) :
    (c.withLearner (.watching u.condition script.learner)).BlamesOracle ctx := by
  intro t _ pools s free e failed
  obtain ⟨o, w, granted⟩ := (free u registered).granted
  have observed : (Session.partner ctx t).observe u.condition s =
      (.ok o, { s with world := w }) := by
    simp only [Session.partner, granted]
  rw [Session.learn] at failed
  rw [Session.exchanges]
  simp only [withLearner, Learner.watching, Dialogue.run, Dialogue.exchanges, observed,
    LearnerScript.learner, quiet] at failed ⊢
  rcases askAll_answered (Session.partner ctx t) _ pools.positive 0 { s with world := w }
    with ⟨sample, e', refused⟩ | ⟨k, s', same⟩
  · exact ⟨sample, e', List.mem_cons_of_mem _ refused⟩
  · rw [same] at failed
    exact absurd failed (script.reply_ne_oracle _ _ _ e)

end Scripted

/-- **Only misuse escapes a suite.**  With any grammar and formula, any tests and any solvers, let at
least one attempt be allowed and the registered tests be free, and let the learner blame the oracle
only when the oracle failed and ask unheld.  Then learning gives exactly one result for each test, in
order and in place of those of an earlier learning, each within the allowed attempts and without
preconditions only after the last of them.  What is held is held as before.  Whenever the tests are
free, as they are then, measuring on one sample or more, and no more than a vector has room for,
gives exactly one record for each pair of a test and one of its preconditions, in order. -/
theorem Suite.learning_completes {φ σ κ : Type} (c : Collaborators φ σ κ) (suite : Suite)
    (s : Session φ κ) (retries : 1 ≤ suite.context.settings.maxLearnerRetries)
    (free : ∀ t ∈ suite.tests, t.Free s.world) (blames : c.BlamesOracle suite.context)
    (unheld : c.AsksUnheld suite.context) :
    ∃ results s', suite.learnPreconditions c s = (.ok results, { suite with results }, s') ∧
      results.map (·.test) = suite.tests ∧
      (∀ r ∈ results, r.WithinRetries suite.context.settings.maxLearnerRetries) ∧
      (∀ q, s'.world.inFlight q = s.world.inFlight q) ∧
      ∀ later : Session φ κ, (∀ t ∈ suite.tests, t.Free later.world) →
        ∀ count, 1 ≤ count → count ≤ streamCapacity → ∃ records later',
          ({ suite with results } : Suite).resultsAccuracy c count later = (.ok records, later') ∧
          records.map (fun r => (r.test, r.precondition)) = TestResult.pairs results := by
  obtain ⟨results, s', learned, tied, within, same⟩ := Session.learnTests_of_free blames unheld
    retries suite.tests (fun _ mem => mem) (s := s.note (.learningSuite suite.tests.length)) free
  rw [learnPreconditions, if_neg (Nat.ne_of_gt retries)]
  simp only [learned]
  refine ⟨results, _, rfl, tied, within, same, fun later freeLater count positive room => ?_⟩
  refine resultsAccuracy_of_free c { suite with results } positive room fun result stored => ?_
  exact freeLater result.test (tied ▸ List.mem_map.2 ⟨result, stored, rfl⟩)


/-- A suite with a test for the letter a. -/
def letterSuite : Suite := { context := letterContext }

/-- A learner that watches the condition of that test and asks about each positive sample. -/
def watchingLearner : Learner (List LearnerCall) :=
  .watching isLetterA.condition (LearnerScript.learner { checksOracle := false })

/-- A learner that asks its oracle while it watches the test's own condition is refused, and
learning fails with it, although it blames the oracle justly and all tests were free. -/
theorem Suite.learning_fails_while_watched :
    1 ≤ letterSuite.context.settings.maxLearnerRetries ∧
    (∀ t ∈ letterSuite.tests, t.Free letterSession.world) ∧
    (letterSource watchingLearner).BlamesOracle letterSuite.context ∧
    (letterSuite.learnPreconditions (letterSource watchingLearner) letterSession).1 =
      .error (.condition (.observationInFlight "is a")) := by
  refine ⟨by decide, fun _ _ _ _ => rfl, ?_, ?_⟩
  · exact (letterSource watchingLearner).blamesOracle_watching (u := isLetterA) List.mem_cons_self
      rfl
  · rfl

/-- With a learner that only checks the oracle the letters are learned for and measured. -/
theorem Suite.learning_completes_letters :
    1 ≤ letterSuite.context.settings.maxLearnerRetries ∧
    (∀ t ∈ letterSuite.tests, t.Free letterSession.world) ∧
    (letterSource checkingScript.learner).BlamesOracle letterSuite.context ∧
    (letterSource checkingScript.learner).AsksUnheld letterSuite.context ∧
    ∃ results s', letterSuite.learnPreconditions (letterSource checkingScript.learner)
        letterSession = (.ok results, { letterSuite with results }, s') ∧
      results.map (·.test.name) = ["letter"] ∧
      ∃ records later', ({ letterSuite with results } : Suite).resultsAccuracy
        (letterSource checkingScript.learner) 3 s' = (.ok records, later') := by
  have free : ∀ t ∈ letterSuite.tests, t.Free letterSession.world := fun _ _ _ _ => rfl
  have blames :=
    (letterSource checkingScript.learner).blamesOracle_script letterContext checkingScript
  have unheld :=
    (letterSource checkingScript.learner).asksUnheld_script letterContext checkingScript
  obtain ⟨results, s', learned, tied, -, same, measures⟩ := learning_completes
    (letterSource checkingScript.learner) letterSuite letterSession (by decide) free blames unheld
  obtain ⟨records, later', measured, -⟩ :=
    measures s' (fun t mem => (free t mem).congr same) 3 (by decide) (by decide)
  refine ⟨by decide, free, blames, unheld, results, s', learned, ?_, records, later', measured⟩
  rw [show results.map (·.test.name) = (results.map (·.test)).map (·.name) by simp, tied]
  rfl

end PreconditionMining
