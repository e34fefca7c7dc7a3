/-
# Discovery

Discovery looks for samples that trigger a condition and samples that do not.
It has two phases.  Exploration draws fresh samples until both pools hold more
than a fifth of the target, or the tries are used up, or the solver ends it.
Mutation then makes sweeps over the pools: each sweep mutates every sample that
was pooled when the sweep began, once, and adds the mutants at its end.  Sweeps
go on until there are enough positive samples, or the tries are used up, or the
solver ends it, and a sweep that the solver cuts short still adds its mutants.

The samples come from a sampler, a machine with one state for the source of the
samples and for the judge of them.  A failure of the judge ends a discovery at
once.
-/

import PreconditionMining.Condition.Basic
import PreconditionMining.Discovery.Stop
import PreconditionMining.Settings.Harness
import PreconditionMining.Solver.Basic

namespace PreconditionMining

/-- A source and a judge of samples over states of type `σ`. -/
structure Sampler (σ : Type) where
  solve : σ → Except SolverError Tree × σ
  mutate : Tree → σ → Except SolverError Tree × σ
  /-- Whether a sample triggers the condition. -/
  classify : Tree → σ → Except ConditionError Bool × σ
  /-- Tells what happens. -/
  note : Event → σ → σ

/-- The sampler of a solver and a judge with a state of its own, to which also the events are
told. -/
def Sampler.ofSolver {σ ρ : Type} (solver : Solver σ)
    (judge : Tree → ρ → Except ConditionError Bool × ρ) (note : Event → ρ → ρ) :
    Sampler (σ × ρ) where
  solve
    | (q, s) =>
      let r := solver.solve q
      (r.answer, r.state, r.events.foldl (fun s e => note e s) s)
  mutate sample
    | (q, s) =>
      let r := solver.mutate sample q
      (r.answer, r.state, r.events.foldl (fun s e => note e s) s)
  classify sample
    | (q, s) =>
      let (verdict, s) := judge sample s
      (verdict, q, s)
  note e
    | (q, s) => (q, note e s)

/-- What a discovery comes to. -/
structure Discovery where
  pools : Pools
  /-- The sizes of the pools after exploration. -/
  exploration : PoolSizes
  /-- The sizes of the pools after each sweep. -/
  rounds : List PoolSizes
  stop : Stop

namespace Discovery

/-- A discovery that found nothing. -/
def nothing (stop : Stop) : Discovery := ⟨.empty, .zero, [], stop⟩

variable {σ : Type}

/-- Draws at most a number of samples, until both pools hold more than a quota.  With the
pools comes the refusal of the solver that ended the exploration, if one did. -/
def explore (sampler : Sampler σ) (quota : Nat) :
    Nat → Pools → σ → Except ConditionError (Pools × Option SolverError) × σ
  | 0, pools, s => (.ok (pools, none), s)
  | tries + 1, pools, s =>
    if quota < pools.positive.length ∧ quota < pools.negative.length then (.ok (pools, none), s)
    else
      match sampler.solve s with
      | (.error e, s) => (.ok (pools, some e), sampler.note (.explorationStopped e) s)
      | (.ok sample, s) =>
        match sampler.classify sample s with
        | (.error e, s) => (.error e, s)
        | (.ok triggered, s) => explore sampler quota tries (pools.push sample triggered) s

/-- Mutates samples one after another and files the mutants behind others. -/
def sweep (sampler : Sampler σ) :
    List Tree → Pools → σ → Except ConditionError (Pools × Option SolverError) × σ
  | [], mutants, s => (.ok (mutants, none), s)
  | sample :: rest, mutants, s =>
    match sampler.mutate sample s with
    | (.error e, s) => (.ok (mutants, some e), s)
    | (.ok mutant, s) =>
      match sampler.classify mutant s with
      | (.error e, s) => (.error e, s)
      | (.ok triggered, s) => sweep sampler rest (mutants.push mutant triggered) s

/-- What the sweeps come to: the pools, their sizes after each sweep, and why the sweeps ended
before all were made. -/
structure Swept where
  pools : Pools
  rounds : List PoolSizes
  stop : Option Stop

/-- Makes at most a number of sweeps, after some that have been made, until there are enough
positive samples. -/
def sweeps (sampler : Sampler σ) (target : Nat) :
    Nat → Nat → Pools → σ → Except ConditionError Swept × σ
  | 0, _, pools, s => (.ok ⟨pools, [], none⟩, s)
  | tries + 1, made, pools, s =>
    if target ≤ pools.positive.length then (.ok ⟨pools, [], none⟩, s)
    else if pools.positive.isEmpty then
      (.ok ⟨pools, [], some .noPositiveSeeds⟩, sampler.note .noPositiveSeeds s)
    else
      match sweep sampler pools.toList .empty s with
      | (.error e, s) => (.error e, s)
      | (.ok (mutants, interruption), s) =>
        let pools := pools ++ mutants
        let s := sampler.note (.sweepComplete (made + 1) pools.sizes) s
        match interruption with
        | some e =>
          (.ok ⟨pools, [pools.sizes], some (.ofSolver e)⟩, sampler.note (.mutationStopped e) s)
        | none =>
          match sweeps sampler target tries (made + 1) pools s with
          | (.error e, s) => (.error e, s)
          | (.ok swept, s) => (.ok { swept with rounds := pools.sizes :: swept.rounds }, s)

/-- Why a discovery ends that nothing else has ended. -/
def finalStop (target : Nat) (pools : Pools) : Stop :=
  if target ≤ pools.positive.length then .targetReached else .triesExhausted

/-- The second phase, after an exploration that left it something to do. -/
def mutation (sampler : Sampler σ) (settings : SuiteSettings) (found : Pools) (s : σ) :
    Except ConditionError Discovery × σ :=
  match sweeps sampler settings.targetNumSamples settings.numTries 0 found s with
  | (.error e, s) => (.error e, s)
  | (.ok swept, s) =>
    (.ok ⟨swept.pools, found.sizes, swept.rounds,
      swept.stop.getD (finalStop settings.targetNumSamples swept.pools)⟩, s)

/-- **Discovers samples.**  A solver that runs out of fresh samples can still mutate those that
it gave; any other refusal during exploration ends the discovery. -/
def run (sampler : Sampler σ) (settings : SuiteSettings) (s : σ) :
    Except ConditionError Discovery × σ :=
  match explore sampler settings.initialTarget settings.numTries .empty s with
  | (.error e, s) => (.error e, s)
  | (.ok (found, none), s) => mutation sampler settings found s
  | (.ok (found, some .exhausted), s) => mutation sampler settings found s
  | (.ok (found, some e), s) => (.ok ⟨found, found.sizes, [], .ofSolver e⟩, s)

end Discovery

end PreconditionMining
