/-
# Suites whose solvers are fuzzers

The solvers of a suite may be fuzzers, in states that tell more than the fuzzer
(`Collaborators.OfFuzzers`): each solver that is built is a fuzzer for the formula and
the options that were asked for, and it answers as a fuzzer may.  With a factory of
fuzzers this is so (`ofFuzzers_ofFactory`).

During a discovery such a solver makes a run, and the samples that the discovery drew
fresh are those that the run solved (`exists_run_of_discovery`).  A run with distinct
samples solves no two that read the same, so exploration, which finds some of them, finds
none either (`nodup_explored`, `fuzzer_never_repeats`).
-/

import PreconditionMining.Fuzzer.Factory
import PreconditionMining.Proofs.Fuzzer.Memory
import PreconditionMining.Proofs.Discovery.Exploration
import PreconditionMining.Proofs.Suite.Agreement

namespace PreconditionMining

variable {ρ φ σ κ : Type}

/-- **Solvers that are fuzzers:** each is built as a fuzzer with what was asked for, from any seed
and any draws, over constraints that building does not change; and each call is answered as the
fuzzer may answer it. -/
structure Collaborators.OfFuzzers (c : Collaborators φ σ κ) (chooser : Chooser ρ)
    (fuzzer : σ → Fuzzer ρ) (constraints : φ → Constraints) : Prop where
  build : ∀ g formula options solvers, ∃ seed draws,
    (c.create g formula options solvers).1.map fuzzer =
      Fuzzer.build g formula { options with seed } (constraints solvers) draws
  keeps : ∀ g formula options solvers,
    constraints (c.create g formula options solvers).2 = constraints solvers
  solve : ∀ q, (fuzzer q).Answers chooser .solve (c.solver.solve q).answer
    (fuzzer (c.solver.solve q).state)
  mutate : ∀ sample q, (fuzzer q).Answers chooser (.mutate sample) (c.solver.mutate sample q).answer
    (fuzzer (c.solver.mutate sample q).state)

namespace Collaborators

/-- A factory of fuzzers, with a learner. -/
def ofFactory (learner : Learner κ) : Collaborators FuzzerFactory (Fuzzer WordStream) κ where
  create := FuzzerFactory.create
  solver := Fuzzer.solver WordStream.chooser
  learner := learner

/-- **The solvers of a factory are fuzzers.** -/
theorem ofFuzzers_ofFactory (learner : Learner κ) :
    (ofFactory learner).OfFuzzers WordStream.chooser id FuzzerFactory.constraints where
  build g formula options f := by
    let seed := options.seed.map (FuzzerFactory.seedOf f.builds)
    refine ⟨seed, .ofSeed (seed.getD 0), ?_⟩
    show Except.map id (Fuzzer.ofOptions g formula { options with seed } f.constraints) = _
    rw [Except.map_id]
    rfl
  keeps _ _ _ _ := rfl
  solve _ := .inTime
  mutate _ _ := .inTime

/-- Fuzzers that all make the same choices, with a learner. -/
def ofChoices (chooser : Chooser ρ) (constraints : Constraints) (learner : Learner κ) :
    Collaborators ρ (Fuzzer ρ) κ where
  create g formula options draws := (Fuzzer.build g formula options constraints draws, draws)
  solver := Fuzzer.solver chooser
  learner := learner

theorem ofFuzzers_ofChoices (chooser : Chooser ρ) (constraints : Constraints)
    (learner : Learner κ) :
    (ofChoices chooser constraints learner).OfFuzzers chooser id fun _ => constraints where
  build g formula options draws := by
    refine ⟨options.seed, draws, ?_⟩
    show Except.map id (Fuzzer.build g formula options constraints draws) = _
    rw [Except.map_id]
    rfl
  keeps _ _ _ _ := rfl
  solve _ := .inTime
  mutate _ _ := .inTime

/-- What was built is a fuzzer. -/
theorem OfFuzzers.built {c : Collaborators φ σ κ} {chooser : Chooser ρ} {fuzzer : σ → Fuzzer ρ}
    {constraints : φ → Constraints} (h : c.OfFuzzers chooser fuzzer constraints) {g : Grammar}
    {formula : Option Formula} {options : SolverOptions} {solvers : φ} {q : σ}
    (built : (c.create g formula options solvers).1 = .ok q) :
    ∃ seed draws, Fuzzer.build g formula { options with seed } (constraints solvers) draws =
      .ok (fuzzer q) := by
  obtain ⟨seed, draws, same⟩ := h.build g formula options solvers
  rw [built] at same
  exact ⟨seed, draws, same.symm⟩

end Collaborators

open Discovery

namespace Session

variable {c : Collaborators φ σ κ} {chooser : Chooser ρ} {fuzzer : σ → Fuzzer ρ}
  {constraints : φ → Constraints}

/-- A state of a recorded discovery whose solver has run from a fuzzer on, and has solved the fresh
samples. -/
def Ran (chooser : Chooser ρ) (fuzzer : σ → Fuzzer ρ) (start : Fuzzer ρ)
    (r : (σ × Session φ κ) × Journal) : Prop :=
  ∃ log, Fuzzer.Run chooser start log (fuzzer r.1.1) ∧ r.2.fresh = log.solved.reverse

/-- **Each call of a sampler is one of its fuzzer,** or none. -/
theorem keeps_ran (h : c.OfFuzzers chooser fuzzer constraints) (ctx : Context) (t : ObservedTest)
    (start : Fuzzer ρ) :
    (sampler c ctx t).recording.Keeps (Ran chooser fuzzer start) where
  solve := by
    rintro ⟨⟨q, s⟩, journal⟩ ⟨log, run, fresh⟩
    refine ⟨_, run.answers (h.solve q), ?_⟩
    show Journal.fresh (journal ++ [.solved (c.solver.solve q).answer]) = _
    rw [Journal.fresh_append, fresh]
    cases (c.solver.solve q).answer with
    | ok sample => exact List.reverse_cons.symm
    | error e => exact List.append_nil _
  mutate := by
    rintro sample ⟨⟨q, s⟩, journal⟩ ⟨log, run, fresh⟩
    refine ⟨_, run.answers (h.mutate sample q), ?_⟩
    show Journal.fresh (journal ++ [.mutated sample (c.solver.mutate sample q).answer]) = _
    rw [Journal.fresh_append, fresh]
    exact List.append_nil _
  classify := by
    rintro sample ⟨⟨q, s⟩, journal⟩ ⟨log, run, fresh⟩
    refine ⟨log, run, ?_⟩
    show Journal.fresh (journal ++ [.judged sample _]) = _
    rw [Journal.fresh_append, fresh]
    exact List.append_nil _
  note := by
    rintro e ⟨⟨q, s⟩, journal⟩ ⟨log, run, fresh⟩
    exact ⟨log, run, fresh⟩

/-- **A discovery with a fuzzer makes one run of it,** and what it drew fresh is what the run
solved, in order. -/
theorem exists_run_of_discovery (h : c.OfFuzzers chooser fuzzer constraints) (ctx : Context)
    (t : ObservedTest) (q : σ) (s : Session φ κ) :
    ∃ log f, Fuzzer.Run chooser (fuzzer q) log f ∧
      (journal (sampler c ctx t) ctx.settings (q, s)).fresh = log.solved.reverse := by
  have begun : Ran chooser fuzzer (fuzzer q) ((q, s), []) := ⟨[], .start, rfl⟩
  obtain ⟨log, run, fresh⟩ := good_run (keeps_ran h ctx t (fuzzer q)) ctx.settings begun
  exact ⟨log, _, run, fresh⟩

/-- **Exploration with distinct samples finds no two that read the same.** -/
theorem nodup_explored (h : c.OfFuzzers chooser fuzzer constraints) {ctx : Context}
    {t : ObservedTest} (distinct : (ctx.solverOptions t).distinct = true) {s : Session φ κ}
    {d : Discovery} (found : (s.discover c ctx t).1 = .ok d) :
    (d.explored.toList.map Tree.render).Nodup := by
  rcases built : (s.note (.discovering t.name t.condition.description)).create c ctx ctx.formula
    (ctx.solverOptions t) with ⟨e | q, s'⟩
  · rw [discover] at found
    simp only [built] at found
    obtain rfl := Except.ok.inj found
    exact List.nodup_nil
  · obtain ⟨seed, draws, made⟩ := h.built (congrArg Prod.fst built)
    rw [discover_of_built built] at found
    obtain ⟨exploration, ws, whole, -, course⟩ :=
      exists_course (sampler c ctx t) ctx.settings (q, s')
    rw [show (Discovery.run (sampler c ctx t) ctx.settings (q, s')).1 = .ok d from found] at course
    obtain ⟨log, f, run, fresh⟩ := exists_run_of_discovery h ctx t q s'
    have options := (Fuzzer.of_build made).2.1
    have remembers := run.remembers (options ▸ distinct) (Fuzzer.seen_of_build made)
    have solved : (log.solved.map Tree.render).Nodup := remembers.1 ▸ remembers.2
    -- what exploration drew is the first part of all that was drawn
    rw [whole, Journal.fresh_append] at fresh
    have all : ((exploration.fresh ++ (callsOf ws).fresh).map Tree.render).Nodup := by
      rw [fresh, List.map_reverse]
      exact (List.reverse_perm _).nodup_iff.2 solved
    rw [List.map_append] at all
    have drawn := (List.nodup_append.1 all).1
    exact ((course.explored_perm.map Tree.render).nodup_iff).2 drawn

end Session

/-- **Samples that are to be distinct never repeat.**  Let a fuzzer be built with distinct samples,
and let it be called in any order and as often as one likes, late calls included.  Then no two of
the trees that its solving calls returned read the same; it remembers how these read, and nothing
else; so it counts them; and no mutation, refusal or late call changes what it remembers.  With such
fuzzers, the samples that the exploration of a discovery finds are different as texts, in one pool
or the other. -/
theorem fuzzer_never_repeats {ρ : Type} (chooser : Chooser ρ) :
    (∀ (g : Grammar) (formula : Option Formula) (options : SolverOptions)
      (constraints : Constraints) (draws : ρ) (start f : Fuzzer ρ) (log : Fuzzer.Log),
      Fuzzer.build g formula options constraints draws = .ok start → options.distinct = true →
      Fuzzer.Run chooser start log f →
        (log.solved.map Tree.render).Nodup ∧ f.seen = log.solved.map Tree.render ∧
        f.distinctCount = log.solved.length ∧
        ∀ call answer f', f.Answers chooser call answer f' →
          (∀ t, call = .solve → answer ≠ .ok t) → f'.seen = f.seen) ∧
    ∀ {φ σ κ : Type} (c : Collaborators φ σ κ) (fuzzer : σ → Fuzzer ρ)
      (constraints : φ → Constraints), c.OfFuzzers chooser fuzzer constraints →
      ∀ (ctx : Context) (t : ObservedTest), (ctx.solverOptions t).distinct = true →
      ∀ (s : Session φ κ) (d : Discovery), (s.discover c ctx t).1 = .ok d →
        (d.explored.toList.map Tree.render).Nodup := by
  refine ⟨fun g formula options constraints draws start f log built distinct run => ?_,
    fun c fuzzer constraints h ctx t distinct s d found => Session.nodup_explored h distinct found⟩
  have asked : start.options.distinct = true := by
    rw [(Fuzzer.of_build built).2.1]
    exact distinct
  obtain ⟨seen, nodup⟩ := run.remembers asked (Fuzzer.seen_of_build built)
  refine ⟨seen ▸ nodup, seen, ?_, fun call answer f' answered other => ?_⟩
  · rw [Fuzzer.distinctCount, seen, List.length_map]
  · have kept : f.options.distinct = true := by
      rw [run.sameTask.options]
      exact asked
    exact answered.seen_eq kept other

/-- Fuzzers for the letters a and b that choose one after the other. -/
def lettersInTurn : Collaborators (List Nat) (Fuzzer (List Nat)) (List LearnerCall) :=
  .ofChoices .scripted .empty checkingScript.learner

/-- A session in which nothing was drawn. -/
def turnSession (choices : List Nat) : Session (List Nat) (List LearnerCall) where
  world := .initial
  solvers := choices
  learner := []

/-- A solving call and a mutation leave one sample remembered, and exploration finds both letters
once. -/
theorem fuzzer_never_repeats_letters :
    (Fuzzer.build letters none {} .empty [0, 1, 1, 0, 1] = .ok (.ofLetters [0, 1, 1, 0, 1]) ∧
      ∃ f, Fuzzer.Run .scripted (.ofLetters [0, 1, 1, 0, 1]) Fuzzer.lettersLog f ∧
        f.distinctCount = 1 ∧ f.seen = ["ab"]) ∧
    lettersInTurn.OfFuzzers .scripted id (fun _ => .empty) ∧
      ∃ d, ((turnSession [0, 1]).discover lettersInTurn letterContext isLetterA).1 = .ok d ∧
        (d.explored.toList.map Tree.render).Nodup ∧
        d.explored.toList.map Tree.render = ["a", "b"] := by
  obtain ⟨remembers, differ⟩ := fuzzer_never_repeats Chooser.scripted
  have built := Fuzzer.build_letters [0, 1, 1, 0, 1]
  obtain ⟨f, run⟩ := Fuzzer.run_letters
  obtain ⟨-, seen, count, -⟩ := remembers _ _ _ _ _ _ f _ built rfl run
  have fuzzers : lettersInTurn.OfFuzzers .scripted id fun _ => .empty :=
    Collaborators.ofFuzzers_ofChoices _ _ _
  refine ⟨⟨built, f, run, count, seen⟩, fuzzers, ?_⟩
  have texts : ((turnSession [0, 1]).discover lettersInTurn letterContext isLetterA).1.toOption.map
      (fun d => d.explored.toList.map Tree.render) = some ["a", "b"] := by decide +kernel
  rcases found : ((turnSession [0, 1]).discover lettersInTurn letterContext isLetterA).1 with e | d
  · rw [found] at texts
    cases texts
  · rw [found] at texts
    exact ⟨d, rfl, differ lettersInTurn id _ fuzzers letterContext isLetterA rfl _ d found,
      Option.some.inj texts⟩

end PreconditionMining
