/-
# The course of a discovery

What a discovery does is told here by its journal alone, without the states of
the sampler: how exploration goes (`Exploring`), how a sweep over given samples
goes (`Sweeping`), how sweep follows sweep (`Mutating`), and how the two phases
make a discovery (`Course`).  Each of them says which calls are made, with which
answers, and what comes of them.

That these are the ways a discovery goes is proved once for each of its loops, by
following the loop with a sampler that records: `explore_recorded`,
`sweep_recorded`, `sweeps_recorded`, and for the whole `run_recorded`.  What holds
of every discovery is then a matter of its course.
-/

import PreconditionMining.Proofs.Discovery.Journal

namespace PreconditionMining

namespace Discovery

/-- **How exploration goes:** with at most a number of draws, from pools on. -/
inductive Exploring (quota : Nat) :
    Nat → Pools → Journal → Except ConditionError (Pools × Option SolverError) → Prop
  | spent {pools : Pools} : Exploring quota 0 pools [] (.ok (pools, none))
  | filled {tries : Nat} {pools : Pools}
      (full : quota < pools.positive.length ∧ quota < pools.negative.length) :
      Exploring quota (tries + 1) pools [] (.ok (pools, none))
  | refused {tries : Nat} {pools : Pools} {e : SolverError}
      (short : ¬ (quota < pools.positive.length ∧ quota < pools.negative.length)) :
      Exploring quota (tries + 1) pools [.solved (.error e)] (.ok (pools, some e))
  | misjudged {tries : Nat} {pools : Pools} {sample : Tree} {e : ConditionError}
      (short : ¬ (quota < pools.positive.length ∧ quota < pools.negative.length)) :
      Exploring quota (tries + 1) pools [.solved (.ok sample), .judged sample (.error e)] (.error e)
  | filed {tries : Nat} {pools : Pools} {sample : Tree} {triggered : Bool} {later : Journal}
      {result : Except ConditionError (Pools × Option SolverError)}
      (short : ¬ (quota < pools.positive.length ∧ quota < pools.negative.length))
      (rest : Exploring quota tries (pools.push sample triggered) later result) :
      Exploring quota (tries + 1) pools
        ([.solved (.ok sample), .judged sample (.ok triggered)] ++ later) result

/-- **How a sweep goes** over samples, with the mutants of some samples before. -/
inductive Sweeping :
    List Tree → Pools → Journal → Except ConditionError (Pools × Option SolverError) → Prop
  | done {mutants : Pools} : Sweeping [] mutants [] (.ok (mutants, none))
  | refused {sample : Tree} {rest : List Tree} {mutants : Pools} {e : SolverError} :
      Sweeping (sample :: rest) mutants [.mutated sample (.error e)] (.ok (mutants, some e))
  | misjudged {sample mutant : Tree} {rest : List Tree} {mutants : Pools} {e : ConditionError} :
      Sweeping (sample :: rest) mutants
        [.mutated sample (.ok mutant), .judged mutant (.error e)] (.error e)
  | filed {sample mutant : Tree} {rest : List Tree} {mutants : Pools} {triggered : Bool}
      {later : Journal} {result : Except ConditionError (Pools × Option SolverError)}
      (others : Sweeping rest (mutants.push mutant triggered) later result) :
      Sweeping (sample :: rest) mutants
        ([.mutated sample (.ok mutant), .judged mutant (.ok triggered)] ++ later) result

/-- A sweep: the samples that were pooled when it began, and the calls made in it. -/
structure Sweep where
  pooled : Pools
  calls : Journal

/-- The samples that are pooled after a sweep. -/
def Sweep.after (w : Sweep) : Pools := w.pooled ++ w.calls.filed

/-- The calls of several sweeps. -/
def callsOf (sweeps : List Sweep) : Journal := sweeps.flatMap (·.calls)

@[simp] theorem callsOf_nil : callsOf [] = [] := rfl

@[simp] theorem callsOf_cons (w : Sweep) (sweeps : List Sweep) :
    callsOf (w :: sweeps) = w.calls ++ callsOf sweeps := rfl

/-- **How sweep follows sweep:** at most a number of them, from pools on. -/
inductive Mutating (target : Nat) :
    Nat → Pools → List Sweep → Except ConditionError Swept → Prop
  | spent {pools : Pools} : Mutating target 0 pools [] (.ok ⟨pools, [], none⟩)
  | reached {tries : Nat} {pools : Pools} (enough : target ≤ pools.positive.length) :
      Mutating target (tries + 1) pools [] (.ok ⟨pools, [], none⟩)
  | seedless {tries : Nat} {pools : Pools} (short : pools.positive.length < target)
      (none : pools.positive = []) :
      Mutating target (tries + 1) pools [] (.ok ⟨pools, [], some .noPositiveSeeds⟩)
  | misjudged {tries : Nat} {pools : Pools} {calls : Journal} {e : ConditionError}
      (short : pools.positive.length < target) (seeds : pools.positive ≠ [])
      (swept : Sweeping pools.toList .empty calls (.error e)) :
      Mutating target (tries + 1) pools [⟨pools, calls⟩] (.error e)
  | interrupted {tries : Nat} {pools mutants : Pools} {calls : Journal} {e : SolverError}
      (short : pools.positive.length < target) (seeds : pools.positive ≠ [])
      (swept : Sweeping pools.toList .empty calls (.ok (mutants, some e))) :
      Mutating target (tries + 1) pools [⟨pools, calls⟩]
        (.ok ⟨pools ++ mutants, [(pools ++ mutants).sizes], some (.ofSolver e)⟩)
  | swept {tries : Nat} {pools mutants : Pools} {calls : Journal} {later : List Sweep}
      {result : Except ConditionError Swept}
      (short : pools.positive.length < target) (seeds : pools.positive ≠ [])
      (swept : Sweeping pools.toList .empty calls (.ok (mutants, none)))
      (rest : Mutating target tries (pools ++ mutants) later result) :
      Mutating target (tries + 1) pools (⟨pools, calls⟩ :: later)
        (result.map fun r => { r with rounds := (pools ++ mutants).sizes :: r.rounds })

/-- **The course of a discovery:** the calls of its exploration, its sweeps, and what it comes
to. -/
inductive Course (settings : SuiteSettings) :
    Journal → List Sweep → Except ConditionError Discovery → Prop
  | misjudged {exploration : Journal} {e : ConditionError}
      (explored : Exploring settings.initialTarget settings.numTries .empty exploration
        (.error e)) :
      Course settings exploration [] (.error e)
  | refused {exploration : Journal} {found : Pools} {e : SolverError}
      (explored : Exploring settings.initialTarget settings.numTries .empty exploration
        (.ok (found, some e)))
      (final : e ≠ .exhausted) :
      Course settings exploration [] (.ok ⟨found, found.sizes, [], .ofSolver e⟩)
  | mutated {exploration : Journal} {found : Pools} {refusal : Option SolverError}
      {sweeps : List Sweep} {result : Except ConditionError Swept}
      (explored : Exploring settings.initialTarget settings.numTries .empty exploration
        (.ok (found, refusal)))
      (mild : ∀ e, refusal = some e → e = .exhausted)
      (swept : Mutating settings.targetNumSamples settings.numTries found sweeps result) :
      Course settings exploration sweeps
        (result.map fun r => ⟨r.pools, found.sizes, r.rounds,
          r.stop.getD (finalStop settings.targetNumSamples r.pools)⟩)

variable {σ : Type} (sampler : Sampler σ)

/-- Exploration goes as described. -/
theorem explore_recorded (quota : Nat) :
    ∀ (tries : Nat) (pools : Pools) (s : σ) (journal : Journal),
      Recorded sampler (Exploring quota tries pools) (explore sampler quota tries pools s) journal
        (explore sampler.recording quota tries pools (s, journal))
  | 0, pools, s, journal => ⟨[], by simp [explore], by simp, .spent⟩
  | tries + 1, pools, s, journal => by
    by_cases full : quota < pools.positive.length ∧ quota < pools.negative.length
    · exact ⟨[], by simp [explore, full], by simp, by simpa [explore, full] using .filled full⟩
    · rcases solved : sampler.solve s with ⟨e | sample, s'⟩
      · refine ⟨[.solved (.error e)], ?_, ?_, ?_⟩
        · simp [explore, full, solved]
        · simpa using ⟨s, by rw [solved]⟩
        · simpa [explore, full, solved] using .refused full
      · rcases judged : sampler.classify sample s' with ⟨e | triggered, s''⟩
        · refine ⟨[.solved (.ok sample), .judged sample (.error e)], ?_, ?_, ?_⟩
          · simp [explore, full, solved, judged]
          · simpa using ⟨⟨s, by rw [solved]⟩, ⟨s', by rw [judged]⟩⟩
          · simpa [explore, full, solved, judged] using .misjudged full
        · have rest := explore_recorded quota tries (pools.push sample triggered) s''
            (journal ++ [.solved (.ok sample), .judged sample (.ok triggered)])
          have goes : explore sampler quota (tries + 1) pools s =
              explore sampler quota tries (pools.push sample triggered) s'' := by
            simp [explore, full, solved, judged]
          have recorded : explore sampler.recording quota (tries + 1) pools (s, journal) =
              explore sampler.recording quota tries (pools.push sample triggered) (s'', journal ++
                [.solved (.ok sample), .judged sample (.ok triggered)]) := by
            simp [explore, full, solved, judged]
          rw [goes, recorded]
          refine rest.prepend ?_ fun part => .filed full
          simpa using ⟨⟨s, by rw [solved]⟩, ⟨s', by rw [judged]⟩⟩

/-- A sweep goes as described. -/
theorem sweep_recorded :
    ∀ (samples : List Tree) (mutants : Pools) (s : σ) (journal : Journal),
      Recorded sampler (Sweeping samples mutants) (sweep sampler samples mutants s) journal
        (sweep sampler.recording samples mutants (s, journal))
  | [], mutants, s, journal => ⟨[], by simp [sweep], by simp, .done⟩
  | sample :: rest, mutants, s, journal => by
    rcases mutated : sampler.mutate sample s with ⟨e | mutant, s'⟩
    · refine ⟨[.mutated sample (.error e)], ?_, ?_, ?_⟩
      · simp [sweep, mutated]
      · simpa using ⟨s, by rw [mutated]⟩
      · simpa [sweep, mutated] using .refused
    · rcases judged : sampler.classify mutant s' with ⟨e | triggered, s''⟩
      · refine ⟨[.mutated sample (.ok mutant), .judged mutant (.error e)], ?_, ?_, ?_⟩
        · simp [sweep, mutated, judged]
        · simpa using ⟨⟨s, by rw [mutated]⟩, ⟨s', by rw [judged]⟩⟩
        · simpa [sweep, mutated, judged] using .misjudged
      · have others := sweep_recorded rest (mutants.push mutant triggered) s''
          (journal ++ [.mutated sample (.ok mutant), .judged mutant (.ok triggered)])
        have goes : sweep sampler (sample :: rest) mutants s =
            sweep sampler rest (mutants.push mutant triggered) s'' := by
          simp [sweep, mutated, judged]
        have recorded : sweep sampler.recording (sample :: rest) mutants (s, journal) =
            sweep sampler.recording rest (mutants.push mutant triggered) (s'', journal ++
              [.mutated sample (.ok mutant), .judged mutant (.ok triggered)]) := by
          simp [sweep, mutated, judged]
        rw [goes, recorded]
        refine others.prepend ?_ fun part => .filed
        simpa using ⟨⟨s, by rw [mutated]⟩, ⟨s', by rw [judged]⟩⟩

/-- After a sweep that is not cut short the sweeps go on from what it left. -/
theorem sweeps_of_sweep {target : Nat} (tries made : Nat) {pools mutants : Pools} {s s' : σ}
    (short : ¬ target ≤ pools.positive.length) (seeded : pools.positive.isEmpty = false)
    (out : sweep sampler pools.toList .empty s = (.ok (mutants, none), s')) :
    sweeps sampler target (tries + 1) made pools s =
      let rest := sweeps sampler target tries (made + 1) (pools ++ mutants)
        (sampler.note (.sweepComplete (made + 1) (pools ++ mutants).sizes) s')
      (rest.1.map fun r => { r with rounds := (pools ++ mutants).sizes :: r.rounds }, rest.2) := by
  rw [sweeps, if_neg short, seeded, out]
  dsimp only
  generalize sweeps sampler target tries _ _ _ = rest
  rcases rest with ⟨e | r, s''⟩ <;> rfl

/-- Sweeps go as described. -/
theorem sweeps_recorded (target : Nat) :
    ∀ (tries made : Nat) (pools : Pools) (s : σ) (journal : Journal),
      Recorded sampler
        (fun part result => ∃ ws, part = callsOf ws ∧ Mutating target tries pools ws result)
        (sweeps sampler target tries made pools s) journal
        (sweeps sampler.recording target tries made pools (s, journal))
  | 0, made, pools, s, journal => ⟨[], by simp [sweeps], by simp, [], rfl, .spent⟩
  | tries + 1, made, pools, s, journal => by
    by_cases enough : target ≤ pools.positive.length
    · exact ⟨[], by simp [sweeps, enough], by simp, [], rfl,
        by simpa [sweeps, enough] using .reached enough⟩
    have short : pools.positive.length < target := Nat.lt_of_not_le enough
    by_cases barren : pools.positive = []
    · have noSeed : pools.positive.isEmpty = true := by simp [barren]
      refine ⟨[], ?_, by simp, [], rfl, ?_⟩
      · simp [sweeps, enough, noSeed]
      · simpa [sweeps, enough, noSeed] using .seedless short barren
    have seeded : pools.positive.isEmpty = false := by simp [barren]
    obtain ⟨calls, same, genuine, swept⟩ := sweep_recorded sampler pools.toList .empty
      s journal
    rcases out : sweep sampler pools.toList .empty s with ⟨e | ⟨mutants, interruption⟩, s'⟩
    · rw [out] at same swept
      refine ⟨calls, ?_, genuine, [⟨pools, calls⟩], by simp, ?_⟩
      · simp [sweeps, enough, seeded, out, same]
      · simpa [sweeps, enough, seeded, out] using .misjudged short barren swept
    rw [out] at same swept
    cases interruption with
    | some e =>
      refine ⟨calls, ?_, genuine, [⟨pools, calls⟩], by simp, ?_⟩
      · simp [sweeps, enough, seeded, out, same]
      · simpa [sweeps, enough, seeded, out] using .interrupted short barren swept
    | none =>
      -- the event that ends a sweep is told to both, and it does not enter the journal
      obtain ⟨later, same', genuine', ws, rfl, rest⟩ := sweeps_recorded target tries (made + 1)
        (pools ++ mutants) (sampler.note (.sweepComplete (made + 1) (pools ++ mutants).sizes) s')
        (journal ++ calls)
      have goes := sweeps_of_sweep sampler tries made enough seeded out
      have recorded := sweeps_of_sweep sampler.recording tries made enough seeded same
      rw [goes, recorded]
      dsimp only
      refine ⟨calls ++ callsOf ws, ?_, ?_, ⟨pools, calls⟩ :: ws, rfl,
        .swept short barren swept rest⟩
      · rw [Sampler.note_recording, same', List.append_assoc]
      · exact fun entry mem => (List.mem_append.1 mem).elim (genuine entry) (genuine' entry)

/-- The second phase goes as described. -/
theorem mutation_recorded (settings : SuiteSettings) (found : Pools) (s : σ) (journal : Journal) :
    Recorded sampler
      (fun part result => ∃ ws swept, part = callsOf ws ∧
        Mutating settings.targetNumSamples settings.numTries found ws swept ∧
        result = swept.map fun r => ⟨r.pools, found.sizes, r.rounds,
          r.stop.getD (finalStop settings.targetNumSamples r.pools)⟩)
      (mutation sampler settings found s) journal
      (mutation sampler.recording settings found (s, journal)) := by
  obtain ⟨part, same, genuine, ws, rfl, swept⟩ := sweeps_recorded sampler
    settings.targetNumSamples settings.numTries 0 found s journal
  rcases out : sweeps sampler settings.targetNumSamples settings.numTries 0 found s with
    ⟨e | r, s'⟩ <;> rw [out] at same swept
  · refine ⟨callsOf ws, ?_, genuine, ws, _, rfl, swept, ?_⟩
    · simp [mutation, out, same]
    · simp [mutation, out, Except.map]
  · refine ⟨callsOf ws, ?_, genuine, ws, _, rfl, swept, ?_⟩
    · simp [mutation, out, same]
    · simp [mutation, out, Except.map]

/-- A refusal during exploration ends a discovery, unless it is that there is nothing new. -/
theorem run_of_refusal {settings : SuiteSettings} {found : Pools} {e : SolverError} {s s' : σ}
    (final : e ≠ .exhausted)
    (out : explore sampler settings.initialTarget settings.numTries .empty s =
      (.ok (found, some e), s')) :
    run sampler settings s = (.ok ⟨found, found.sizes, [], .ofSolver e⟩, s') := by
  rw [run, out]
  cases e with
  | exhausted => exact absurd rfl final
  | _ => rfl

/-- **A discovery goes as described.** -/
theorem run_recorded (settings : SuiteSettings) (s : σ) (journal : Journal) :
    Recorded sampler
      (fun part result => ∃ exploration ws, part = exploration ++ callsOf ws ∧
        Course settings exploration ws result)
      (run sampler settings s) journal (run sampler.recording settings (s, journal)) := by
  obtain ⟨exploration, same, genuine, explored⟩ := explore_recorded sampler
    settings.initialTarget settings.numTries .empty s journal
  rcases out : explore sampler settings.initialTarget settings.numTries .empty s with
    ⟨e | ⟨found, refusal⟩, s'⟩ <;> rw [out] at same explored
  · refine ⟨exploration, ?_, genuine, exploration, [], by simp, ?_⟩
    · simp [run, out, same]
    · simpa [run, out] using .misjudged explored
  have goesOn : (∀ e, refusal = some e → e = .exhausted) →
      Recorded sampler
        (fun part result => ∃ exploration ws, part = exploration ++ callsOf ws ∧
          Course settings exploration ws result)
        (mutation sampler settings found s') journal
        (mutation sampler.recording settings found (s', journal ++ exploration)) := by
    intro mild
    refine (mutation_recorded sampler settings found s' (journal ++ exploration)).prepend genuine ?_
    rintro part ⟨ws, swept, rfl, mutated, result⟩
    exact ⟨exploration, ws, rfl, result ▸ .mutated explored mild mutated⟩
  cases refusal with
  | none =>
    rw [run, out, run, same]
    exact goesOn fun e eq => by cases eq
  | some e =>
    by_cases mild : e = .exhausted
    · subst mild
      rw [run, out, run, same]
      exact goesOn fun e eq => (Option.some.inj eq).symm
    · refine ⟨exploration, ?_, genuine, exploration, [], by simp, ?_⟩
      · rw [run_of_refusal _ mild out, run_of_refusal _ mild same]
      · rw [run_of_refusal _ mild out]
        exact .refused explored mild

end Discovery

end PreconditionMining
