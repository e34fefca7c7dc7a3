/-
# Evaluation streams test what they claim

A stream of a measurement is drawn from a fuzzer whose samples may repeat, whatever the
options of the test say.  Without a time budget each of its calls either returns a sample
that satisfies the formula of the stream or is barren (`Fuzzer.Streaming`), and so a stream
is there unless an atom is not registered, the start symbol has no finite derivation, or one
of the calls is barren (`exists_streams_iff`).

So it is known what a pair of a test and a precondition is measured on, and when it is not
measured (`pass_of_measure`, `measure_eq_none_iff_of_fuzzers`).  The pairs of a suite are
measured one after another, each in the session that those before it left
(`measureAll_getElem?`), over constraints that nothing changes (`constraints_measureAll`):
`evaluation_tests_what_it_claims`.
-/

import PreconditionMining.Proofs.Fuzzer.Rejection
import PreconditionMining.Proofs.Suite.Fuzzers
import PreconditionMining.Proofs.Suite.Measuring
import PreconditionMining.Proofs.Suite.Streams

namespace PreconditionMining

variable {ρ φ σ κ : Type}

namespace Solver

/-- A solver after a number of calls for samples. -/
def after (solver : Solver σ) : Nat → σ → σ
  | 0, q => q
  | n + 1, q => solver.after n (solver.solve q).state

/-- All calls are answered with samples when each one is. -/
theorem exists_answers_iff (solver : Solver σ) (n : Nat) (q : σ) :
    (∃ samples : List Tree, solver.answers n q = samples.map .ok) ↔
      ∀ i < n, ∃ t, (solver.solve (solver.after i q)).answer = .ok t := by
  induction n generalizing q with
  | zero => exact ⟨fun _ i lt => absurd lt (Nat.not_lt_zero i), fun _ => ⟨[], rfl⟩⟩
  | succ n ih =>
    rw [answers]
    constructor
    · rintro ⟨samples, same⟩ i lt
      obtain - | ⟨t, rest⟩ := samples
      · cases same
      · rw [List.map_cons, List.cons.injEq] at same
        cases i with
        | zero => exact ⟨t, same.1⟩
        | succ i => exact (ih _).1 ⟨rest, same.2⟩ i (Nat.lt_of_succ_lt_succ lt)
    · intro each
      obtain ⟨t, first⟩ := each 0 (Nat.succ_pos n)
      obtain ⟨rest, same⟩ := (ih _).2 fun i lt => each (i + 1) (Nat.succ_lt_succ lt)
      refine ⟨t :: rest, ?_⟩
      rw [same, List.map_cons, ← first]
      rfl

/-- A sample among the answers is the answer of a call. -/
theorem exists_call_of_answers (solver : Solver σ) {n : Nat} {q : σ} {samples : List Tree}
    (given : solver.answers n q = samples.map .ok) {t : Tree} (mem : t ∈ samples) :
    ∃ i, (solver.solve (solver.after i q)).answer = .ok t := by
  induction samples generalizing n q with
  | nil => cases mem
  | cons first rest ih =>
    obtain - | n := n
    · cases given
    · rw [answers, List.map_cons, List.cons.injEq] at given
      rcases List.mem_cons.1 mem with rfl | mem
      · exact ⟨0, given.1⟩
      · obtain ⟨i, answer⟩ := ih given.2 mem
        exact ⟨i + 1, answer⟩

end Solver

/-- Without a time budget a fuzzer is never late. -/
theorem Fuzzer.Answers.eq_of_timeless {chooser : Chooser ρ} {f f' : Fuzzer ρ} {call : Fuzzer.Call}
    {answer : Except SolverError Tree} (answered : f.Answers chooser call answer f')
    (timeless : f.options.timeoutMs = none) : answer = (f.call chooser call).answer := by
  cases answered with
  | inTime => rfl
  | late budget draws =>
    rw [timeless] at budget
    cases budget

/-- **A fuzzer that a stream is drawn from:** samples may repeat, there is no time budget, and
what is checked is the formula of the stream. -/
structure Fuzzer.Streaming (constraints : Constraints) (formula : Option Formula)
    (f : Fuzzer ρ) : Prop where
  repeats : f.options.distinct = false
  timeless : f.options.timeoutMs = none
  compiled : constraints.compile formula = .ok f.formula

theorem Fuzzer.Streaming.of_sameTask {constraints : Constraints} {formula : Option Formula}
    {f f' : Fuzzer ρ} (streaming : f.Streaming constraints formula) (task : f.SameTask f') :
    f'.Streaming constraints formula where
  repeats := task.options ▸ streaming.repeats
  timeless := task.options ▸ streaming.timeless
  compiled := task.formula ▸ streaming.compiled

namespace Collaborators

/-- **A stream stalls:** its solver is built, and one of the calls for its samples is barren. -/
def Stalls (c : Collaborators φ σ κ) (chooser : Chooser ρ) (fuzzer : σ → Fuzzer ρ) (ctx : Context)
    (t : ObservedTest) (count : Nat) (formula : Option Formula) (solvers : φ) : Prop :=
  ∃ q, (c.create ctx.grammar formula (ctx.streamOptions t) solvers).1 = .ok q ∧
    ∃ i < count, (fuzzer (c.solver.after i q)).Barren chooser

namespace OfFuzzers

variable {c : Collaborators φ σ κ} {chooser : Chooser ρ} {fuzzer : σ → Fuzzer ρ}
  {constraints : φ → Constraints} {ctx : Context} {t : ObservedTest} {formula : Option Formula}
  {solvers : φ} {q : σ}

/-- **The solver of a stream is such a fuzzer,** after any number of calls. -/
theorem streaming (h : c.OfFuzzers chooser fuzzer constraints)
    (timeless : (ctx.solverOptions t).timeoutMs = none)
    (built : (c.create ctx.grammar formula (ctx.streamOptions t) solvers).1 = .ok q) (i : Nat) :
    (fuzzer (c.solver.after i q)).Streaming (constraints solvers) formula := by
  obtain ⟨seed, draws, made⟩ := h.built built
  have options := (Fuzzer.of_build made).2.1
  have begun : (fuzzer q).Streaming (constraints solvers) formula := by
    refine ⟨?_, ?_, Fuzzer.compile_of_build made⟩
    · rw [options]
      rfl
    · rw [options]
      exact timeless
  have goesOn : ∀ i q, (fuzzer q).Streaming (constraints solvers) formula →
      (fuzzer (c.solver.after i q)).Streaming (constraints solvers) formula := by
    intro i
    induction i with
    | zero => exact fun q streaming => streaming
    | succ i ih => exact fun q streaming => ih _ (streaming.of_sameTask (h.solve q).sameTask)
  exact goesOn i q begun

/-- The answer of such a solver is that of the fuzzer. -/
theorem answer_eq (h : c.OfFuzzers chooser fuzzer constraints)
    (streaming : (fuzzer q).Streaming (constraints solvers) formula) :
    (c.solver.solve q).answer = ((fuzzer q).solve chooser).answer :=
  (h.solve q).eq_of_timeless streaming.timeless

/-- **No solver of a stream says that there is nothing new.** -/
theorem ne_exhausted (h : c.OfFuzzers chooser fuzzer constraints)
    (timeless : (ctx.solverOptions t).timeoutMs = none)
    (built : (c.create ctx.grammar formula (ctx.streamOptions t) solvers).1 = .ok q) (i : Nat) :
    (c.solver.solve (c.solver.after i q)).answer ≠ .error .exhausted := by
  have streaming := h.streaming timeless built i
  rw [h.answer_eq streaming]
  exact Fuzzer.solve_ne_exhausted chooser streaming.repeats streaming.timeless

/-- **The samples of a stream satisfy all atoms of its formula.** -/
theorem pass_of_streams (h : c.OfFuzzers chooser fuzzer constraints)
    (timeless : (ctx.solverOptions t).timeoutMs = none) {count : Nat} {samples : List Tree}
    (there : c.Streams ctx t count formula solvers samples) :
    ∀ sample ∈ samples, (constraints solvers).Pass (Formula.atomsOf formula) sample := by
  intro sample mem
  obtain ⟨-, q, built, answers⟩ := there
  obtain ⟨i, answer⟩ := c.solver.exists_call_of_answers answers mem
  have streaming := h.streaming timeless built i
  rw [h.answer_eq streaming] at answer
  have fits := Fuzzer.holds_of_solve chooser streaming.repeats streaming.timeless answer
  exact (Constraints.holds_compile streaming.compiled sample).1 fits

/-- A solver is built where all atoms are registered and the start symbol has a finite
derivation. -/
theorem exists_create_iff (h : c.OfFuzzers chooser fuzzer constraints) {g : Grammar}
    (options : SolverOptions) :
    (∃ q, (c.create g formula options solvers).1 = .ok q) ↔
      (∀ atom ∈ Formula.atomsOf formula, (constraints solvers).find? atom ≠ none) ∧
        ∃ t, g.IsTreeOf startSymbol t := by
  obtain ⟨seed, draws, same⟩ := h.build g formula options solvers
  have buildable : (∃ f, Fuzzer.build g formula { options with seed } (constraints solvers) draws =
      .ok f) ↔ _ := Fuzzer.exists_build_iff
  rw [← buildable, ← same]
  cases (c.create g formula options solvers).1 with
  | error e => simp [Except.map]
  | ok q => simp [Except.map]

/-- The calls of a solver of a stream all succeed when none of them is barren. -/
theorem exists_answers_iff (h : c.OfFuzzers chooser fuzzer constraints)
    (timeless : (ctx.solverOptions t).timeoutMs = none)
    (built : (c.create ctx.grammar formula (ctx.streamOptions t) solvers).1 = .ok q) (count : Nat) :
    (∃ samples : List Tree, c.solver.answers count q = samples.map .ok) ↔
      ¬ ∃ i < count, (fuzzer (c.solver.after i q)).Barren chooser := by
  have fails : ∀ i, (¬ ∃ t, (c.solver.solve (c.solver.after i q)).answer = .ok t) ↔
      (fuzzer (c.solver.after i q)).Barren chooser := fun i => by
    have streaming := h.streaming timeless built i
    rw [h.answer_eq streaming]
    exact Fuzzer.solve_fails_iff chooser streaming.repeats streaming.timeless
  rw [c.solver.exists_answers_iff]
  constructor
  · rintro each ⟨i, lt, barren⟩
    exact (fails i).2 barren (each i lt)
  · intro fertile i lt
    exact Classical.byContradiction fun none => fertile ⟨i, lt, (fails i).1 none⟩

/-- **A stream is there** for which there is room when all atoms are registered, the start symbol has
a finite derivation, and no call is barren. -/
theorem exists_streams_iff (h : c.OfFuzzers chooser fuzzer constraints)
    (timeless : (ctx.solverOptions t).timeoutMs = none) {count : Nat}
    (room : count ≤ streamCapacity) :
    (∃ samples, c.Streams ctx t count formula solvers samples) ↔
      ((∀ atom ∈ Formula.atomsOf formula, (constraints solvers).find? atom ≠ none) ∧
        ∃ t, ctx.grammar.IsTreeOf startSymbol t) ∧
      ¬ c.Stalls chooser fuzzer ctx t count formula solvers := by
  rw [← h.exists_create_iff (ctx.streamOptions t)]
  constructor
  · rintro ⟨samples, -, q, built, answers⟩
    refine ⟨⟨q, built⟩, fun ⟨q', built', barren⟩ => ?_⟩
    obtain rfl := Except.ok.inj (built.symm.trans built')
    exact (h.exists_answers_iff timeless built count).1 ⟨samples, answers⟩ barren
  · rintro ⟨⟨q, built⟩, flows⟩
    obtain ⟨samples, answers⟩ := (h.exists_answers_iff timeless built count).2
      fun barren => flows ⟨q, built, barren⟩
    exact ⟨samples, room, q, built, answers⟩

/-- **A stream is missing** for which there is room when an atom is not registered, or the start
symbol has no finite derivation, or one of the calls is barren. -/
theorem missing_stream_iff (h : c.OfFuzzers chooser fuzzer constraints)
    (timeless : (ctx.solverOptions t).timeoutMs = none) {count : Nat}
    (room : count ≤ streamCapacity) :
    (¬ ∃ samples, c.Streams ctx t count formula solvers samples) ↔
      (∃ atom ∈ Formula.atomsOf formula, (constraints solvers).find? atom = none) ∨
      (¬ ∃ t, ctx.grammar.IsTreeOf startSymbol t) ∨
      c.Stalls chooser fuzzer ctx t count formula solvers := by
  rw [h.exists_streams_iff timeless room, Classical.not_and_iff_not_or_not,
    Classical.not_and_iff_not_or_not, Classical.not_not, or_assoc]
  simp

end OfFuzzers

end Collaborators

namespace Session

variable {c : Collaborators φ σ κ} {ctx : Context} {t : ObservedTest}

/-- **Pairs are measured one after another,** each in the session that those before it left. -/
theorem measureAll_getElem? (c : Collaborators φ σ κ) (ctx : Context) (count : Nat)
    {pairs : List (ObservedTest × Formula)} {s s' : Session φ κ} {records : List AccuracyRecord}
    (done : measureAll c ctx count pairs s = (.ok records, s')) {i : Nat} {r : AccuracyRecord}
    (at_i : records[i]? = some r) :
    pairs[i]? = some (r.test, r.precondition) ∧
      ((measureAll c ctx count (pairs.take i) s).2.measure c ctx count r.test r.precondition).1 =
        .ok r.measurement := by
  induction pairs generalizing s i records with
  | nil =>
    cases done
    cases at_i
  | cons pair rest ih =>
    obtain ⟨t, f⟩ := pair
    rw [measureAll] at done
    rcases first : s.measure c ctx count t f with ⟨halt | m, s₁⟩ <;> simp only [first] at done
    · cases done
    rcases later : measureAll c ctx count rest s₁ with ⟨halt | others, s₂⟩ <;>
      simp only [later] at done
    · cases done
    cases done
    cases i with
    | zero =>
      cases at_i
      exact ⟨rfl, congrArg Prod.fst first⟩
    | succ i =>
      obtain ⟨pair, measured⟩ := ih later at_i
      refine ⟨pair, ?_⟩
      have passed : (measureAll c ctx count (((t, f) :: rest).take (i + 1)) s).2 =
          (measureAll c ctx count (rest.take i) s₁).2 := by
        rw [List.take_succ_cons, measureAll]
        simp only [first]
        rcases measureAll c ctx count (rest.take i) s₁ with ⟨halt | records, z⟩ <;> rfl
      rw [passed]
      exact measured

variable {chooser : Chooser ρ} {fuzzer : σ → Fuzzer ρ} {constraints : φ → Constraints}

/-- **Nothing changes the constraints** while pairs are measured. -/
theorem constraints_measureAll (h : c.OfFuzzers chooser fuzzer constraints) (ctx : Context)
    (count : Nat) (pairs : List (ObservedTest × Formula)) (s : Session φ κ) :
    constraints (measureAll c ctx count pairs s).2.solvers = constraints s.solvers := by
  induction pairs generalizing s with
  | nil => rfl
  | cons pair rest ih =>
    obtain ⟨t, f⟩ := pair
    have lasts : Lasting c ctx t fun z => constraints z.solvers = constraints s.solvers :=
      ⟨fun _ _ same => same, fun z formula options same => (h.keeps _ _ _ _).trans same,
        fun _ _ same => same⟩
    have once := lasts.measure count f (s := s) rfl
    rw [measureAll]
    rcases first : s.measure c ctx count t f with ⟨halt | m, s₁⟩ <;> rw [first] at once
    · exact once
    · have later := (ih s₁).trans once
      simp only
      rcases measured : measureAll c ctx count rest s₁ with ⟨halt | records, s₂⟩ <;>
        rw [measured] at later <;> exact later

/-- **What a pair is measured on satisfies what it is to satisfy.** -/
theorem pass_of_measure (h : c.OfFuzzers chooser fuzzer constraints)
    (timeless : (ctx.solverOptions t).timeoutMs = none) {count : Nat} {precondition : Formula}
    {s : Session φ κ} {m : Measurement}
    (measured : (s.measure c ctx count t precondition).1 = .ok (some m)) :
    (∀ sample ∈ m.raw.samples,
      (constraints s.solvers).Pass (Formula.atomsOf ctx.formula) sample) ∧
    ∀ sample ∈ m.constrained.samples,
      (constraints s.solvers).Pass (Formula.atomsOf ctx.formula ++ precondition.atoms) sample := by
  obtain ⟨raw, constrained, passed, passed', there, there', -, each, each', rfl⟩ :=
    (measure_eq_some_iff c ctx count t precondition s m).1 measured
  have parted := StreamSplit.samples_ofVerdicts_perm (each.trans there.length_eq.symm)
  have parted' := StreamSplit.samples_ofVerdicts_perm (each'.trans there'.length_eq.symm)
  refine ⟨fun sample mem => ?_, fun sample mem => ?_⟩
  · exact h.pass_of_streams timeless there sample (parted.mem_iff.1 mem)
  · have pass := h.pass_of_streams timeless there' sample (parted'.mem_iff.1 mem)
    rw [h.keeps, Formula.atomsOf, Formula.atoms_constrain] at pass
    exact pass

/-- **When a pair is not measured** that is tried and not broken off: an atom is not registered, or
the start symbol has no finite derivation, or one of the two streams stalls. -/
theorem measure_eq_none_iff_of_fuzzers (h : c.OfFuzzers chooser fuzzer constraints)
    (timeless : (ctx.solverOptions t).timeoutMs = none) (count : Nat) (precondition : Formula)
    (s : Session φ κ) (fits : ¬ c.Overflows ctx t count ctx.formula s.solvers) :
    (s.measure c ctx count t precondition).1 = .ok none ↔
      (∃ atom ∈ Formula.atomsOf ctx.formula ++ precondition.atoms,
        (constraints s.solvers).find? atom = none) ∨
      (¬ ∃ t, ctx.grammar.IsTreeOf startSymbol t) ∨
      c.Stalls chooser fuzzer ctx t count ctx.formula s.solvers ∨
      c.Stalls chooser fuzzer ctx t count (some (.constrain ctx.formula precondition))
        (c.create ctx.grammar ctx.formula (ctx.streamOptions t) s.solvers).2 := by
  rw [measure_eq_none_iff, and_iff_right fits]
  by_cases long : streamCapacity < count
  · -- no solver is built for a stream that is too long, or the measurement breaks off
    have unbuilt : ¬ ∃ q, (c.create ctx.grammar ctx.formula (ctx.streamOptions t) s.solvers).1 =
        .ok q := fun built => fits ⟨long, built⟩
    rw [h.exists_create_iff, Classical.not_and_iff_not_or_not] at unbuilt
    refine iff_of_true (.inl fun ⟨_, there⟩ => absurd long (Nat.not_lt_of_le there.1)) ?_
    rcases unbuilt with unregistered | infinite
    · simp only [not_forall, Classical.not_not] at unregistered
      obtain ⟨atom, mem, gone⟩ := unregistered
      exact .inl ⟨atom, List.mem_append_left _ mem, gone⟩
    · exact .inr (.inl infinite)
  have room := Nat.le_of_not_lt long
  rw [h.missing_stream_iff timeless room, h.missing_stream_iff timeless room, h.keeps,
    Formula.atomsOf, Formula.atoms_constrain]
  constructor
  · rintro ((⟨atom, mem, gone⟩ | infinite | stalls) | gone | infinite | stalls)
    · exact .inl ⟨atom, List.mem_append_left _ mem, gone⟩
    · exact .inr (.inl infinite)
    · exact .inr (.inr (.inl stalls))
    · exact .inl gone
    · exact .inr (.inl infinite)
    · exact .inr (.inr (.inr stalls))
  · rintro (gone | infinite | stalls | stalls)
    · exact .inr (.inl gone)
    · exact .inr (.inr (.inl infinite))
    · exact .inl (.inr (.inr stalls))
    · exact .inr (.inr (.inr stalls))

end Session

/-- The records of a suite are those of its pairs. -/
theorem Suite.measureAll_of_resultsAccuracy {c : Collaborators φ σ κ} {suite : Suite} {count : Nat}
    {s s' : Session φ κ} {records : List AccuracyRecord}
    (done : suite.resultsAccuracy c count s = (.ok records, s')) :
    Session.measureAll c suite.context count (TestResult.pairs suite.results) s =
      (.ok records, s') := by
  rw [resultsAccuracy] at done
  split at done
  · cases done
  · split at done
    · cases done
    · next measured =>
      cases done
      exact measured

/-- **Evaluation tests what it claims to test.**  Let the solvers of a suite be fuzzers without a
time budget, whatever the tests override otherwise, and let the preconditions that were learned be
measured.  That succeeds where the tests are free and there is room for the streams, with one record
for each pair.  Each record is that of its pair in the session that the pairs before it left.  What
it was measured on satisfies all atoms of the base formula, and in the constrained stream all those
of the precondition too.  A pair is not measured when and only when one of these atoms is not
registered, or the start symbol has no finite derivation, or a call for a sample of one of the
streams made all its derivations in vain.  No solver ever says that there is nothing new, so it does
not matter how many samples there are. -/
theorem evaluation_tests_what_it_claims {ρ φ σ κ : Type} (chooser : Chooser ρ)
    (fuzzer : σ → Fuzzer ρ) (constraints : φ → Constraints) (c : Collaborators φ σ κ)
    (fuzzers : c.OfFuzzers chooser fuzzer constraints) (suite : Suite)
    (timeless : ∀ result ∈ suite.results,
      (suite.context.solverOptions result.test).timeoutMs = none)
    (count : Nat) (s : Session φ κ) :
    (1 ≤ count → count ≤ streamCapacity → (∀ result ∈ suite.results, result.test.Free s.world) →
      ∃ records s', suite.resultsAccuracy c count s = (.ok records, s') ∧
        records.map (fun r => (r.test, r.precondition)) = TestResult.pairs suite.results) ∧
    ∀ records s', suite.resultsAccuracy c count s = (.ok records, s') →
      ∀ i r, records[i]? = some r →
        let ctx := suite.context
        let pairs := TestResult.pairs suite.results
        let z := (Session.measureAll c ctx count (pairs.take i) s).2
        let first := (c.create ctx.grammar ctx.formula (ctx.streamOptions r.test) z.solvers).2
        let formula := some (Formula.constrain ctx.formula r.precondition)
        let base := Formula.atomsOf ctx.formula
        pairs[i]? = some (r.test, r.precondition) ∧
        (z.measure c ctx count r.test r.precondition).1 = .ok r.measurement ∧
        (∀ m, r.measurement = some m →
          (∀ sample ∈ m.raw.samples, (constraints s.solvers).Pass base sample) ∧
          ∀ sample ∈ m.constrained.samples,
            (constraints s.solvers).Pass (base ++ r.precondition.atoms) sample) ∧
        (r.measurement = none ↔
          (∃ atom ∈ base ++ r.precondition.atoms, (constraints s.solvers).find? atom = none) ∨
          (¬ ∃ t, ctx.grammar.IsTreeOf startSymbol t) ∨
          c.Stalls chooser fuzzer ctx r.test count ctx.formula z.solvers ∨
          c.Stalls chooser fuzzer ctx r.test count formula first) ∧
        ∀ f solvers q, (c.create ctx.grammar f (ctx.streamOptions r.test) solvers).1 = .ok q →
          ∀ n, (c.solver.solve (c.solver.after n q)).answer ≠ .error .exhausted := by
  refine ⟨fun positive room free => suite.resultsAccuracy_of_free c positive room free,
    fun records s' done i r at_i => ?_⟩
  obtain ⟨pair, measured⟩ := Session.measureAll_getElem? c suite.context count
    (Suite.measureAll_of_resultsAccuracy done) at_i
  have budget : (suite.context.solverOptions r.test).timeoutMs = none := by
    obtain ⟨result, stored, mem⟩ := List.mem_flatMap.1 (List.mem_of_getElem? pair)
    obtain ⟨f, -, same⟩ := List.mem_map.1 mem
    exact (Prod.mk.inj same).1 ▸ timeless result stored
  have kept := Session.constraints_measureAll fuzzers suite.context count
    ((TestResult.pairs suite.results).take i) s
  refine ⟨pair, measured, fun m some => ?_, ?_, fun f solvers q built n => ?_⟩
  · have pass := Session.pass_of_measure fuzzers budget (measured.trans (congrArg Except.ok some))
    rw [kept] at pass
    exact pass
  · have fits := mt (Session.measure_eq_overflow_iff c suite.context count r.test r.precondition
      (Session.measureAll c suite.context count ((TestResult.pairs suite.results).take i) s).2).2
      (measured ▸ nofun)
    have unmeasured :=
      Session.measure_eq_none_iff_of_fuzzers fuzzers budget count r.precondition _ fits
    rw [kept, measured, Except.ok.injEq] at unmeasured
    exact unmeasured
  · exact fuzzers.ne_exhausted budget built n

/-- The letter a is a vowel. -/
def vowelChecks : Constraints := .ofList [("vowel", fun sample => sample.render == "a")]

/-- A suite with two preconditions for a test whose samples are to be distinct: that there is a
vowel, and an unknown one. -/
def vowelSuite : Suite where
  context := { letterContext with settings.solver.maxAttempts := 2 }
  results := [⟨{ isLetterA with options.solver := some { distinct := some true } },
    [.all [.all [], .atom "vowel"], .atom "tone"], 1⟩]

/-- Fuzzers for the letters a and b that know what a vowel is. -/
def vowelsInTurn : Collaborators (List Nat) (Fuzzer (List Nat)) (List LearnerCall) :=
  .ofChoices .scripted vowelChecks checkingScript.learner

/-- A session with a factory of fuzzers that know what a vowel is. -/
def factorySession : Session FuzzerFactory (List LearnerCall) where
  world := .initial
  solvers := { constraints := vowelChecks }
  learner := []

/-- Three samples of two letters are measured, the constrained ones all vowels; what is unknown
stays unmeasured, with the fuzzers of a factory too. -/
theorem evaluation_tests_what_it_claims_letters :
    vowelsInTurn.OfFuzzers .scripted id (fun _ => vowelChecks) ∧
    (∀ result ∈ vowelSuite.results,
      (vowelSuite.context.solverOptions result.test).timeoutMs = none) ∧
    (∃ records s', vowelSuite.resultsAccuracy vowelsInTurn 3 (turnSession [0, 1, 0]) =
        (.ok records, s') ∧
      records.map (fun r => r.measurement.map fun m =>
        (m.raw.samples.map Tree.render, m.constrained.samples.map Tree.render)) =
          [some (["a", "a", "b"], ["a", "a", "a"]), none]) ∧
    ∃ records s', vowelSuite.resultsAccuracy (.ofFactory checkingScript.learner) 3
        factorySession = (.ok records, s') ∧
      ∀ r, records[1]? = some r → r.measurement = none := by
  have fuzzers : vowelsInTurn.OfFuzzers .scripted id fun _ => vowelChecks :=
    Collaborators.ofFuzzers_ofChoices _ _ _
  have timeless : ∀ result ∈ vowelSuite.results,
      (vowelSuite.context.solverOptions result.test).timeoutMs = none := by
    intro result mem
    obtain rfl := List.mem_singleton.1 mem
    rfl
  obtain ⟨succeeds, -⟩ := evaluation_tests_what_it_claims .scripted id (fun _ => vowelChecks)
    vowelsInTurn fuzzers vowelSuite timeless 3 (turnSession [0, 1, 0])
  obtain ⟨records, s', done, -⟩ := succeeds (by decide) (by decide) fun _ _ _ _ => rfl
  obtain ⟨succeeds, each⟩ := evaluation_tests_what_it_claims WordStream.chooser id
    FuzzerFactory.constraints (.ofFactory checkingScript.learner)
    (Collaborators.ofFuzzers_ofFactory _) vowelSuite timeless 3 factorySession
  obtain ⟨records', z, done', -⟩ := succeeds (by decide) (by decide) fun _ _ _ _ => rfl
  refine ⟨fuzzers, timeless, ⟨records, s', done, ?_⟩, records', z, done', fun r second => ?_⟩
  · have texts : (vowelSuite.resultsAccuracy vowelsInTurn 3 (turnSession [0, 1, 0])).1.toOption.map
        (fun records => records.map fun r => r.measurement.map fun m =>
          (m.raw.samples.map Tree.render, m.constrained.samples.map Tree.render)) =
        some [some (["a", "a", "b"], ["a", "a", "a"]), none] := by decide +kernel
    rw [done] at texts
    exact Option.some.inj texts
  · obtain ⟨pair, -, -, unmeasured, -⟩ := each records' z done' 1 r second
    have tone : .atom "tone" = r.precondition := (Prod.mk.inj (Option.some.inj pair)).2
    refine unmeasured.2 (.inl ⟨"tone", ?_, rfl⟩)
    rw [← tone]
    exact List.mem_cons_self

end PreconditionMining
