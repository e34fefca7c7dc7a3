/-
# Why a discovery ends

The end of a discovery can be read off its journal.  A refusal during exploration
ends it, unless the solver only ran out of fresh samples; after that a refusal to
mutate ends it; after that, the want of anything positive to mutate; and where
none of these applies it ends because there are enough positive samples, or
because all sweeps were made.

`Exploring.refused_iff` and `Mutating.ending` say this of the two phases, and
`run_stops_as_told` of the whole.
-/

import PreconditionMining.Proofs.Discovery.Sweeps

namespace PreconditionMining

/-- What an end says of the refusal that brought it about: running out of samples and running out
of time are told as such, anything else in the solver's words. -/
def Stop.Tells (stop : Stop) (e : SolverError) : Prop :=
  (e = .exhausted → stop = .solverExhausted) ∧
  (∀ ms, e = .timeout ms → stop = .solverTimeout) ∧
  (e ≠ .exhausted → (∀ ms, e ≠ .timeout ms) → stop = .solverFailed e.message)

theorem Stop.ofSolver_tells (e : SolverError) : (Stop.ofSolver e).Tells e := by
  cases e <;> simp [Stop.ofSolver, Stop.Tells]

namespace Discovery

/-- **Exploration is refused by what its journal shows.** -/
theorem Exploring.refused_iff {quota tries : Nat} {pools found : Pools} {part : Journal}
    {refusal : Option SolverError} {result : Except ConditionError (Pools × Option SolverError)}
    (h : Exploring quota tries pools part result) (ok : result = .ok (found, refusal))
    (e : SolverError) : .error e ∈ part.draws ↔ refusal = some e := by
  induction h with
  | spent => cases ok; simp [Journal.draws]
  | filled full => cases ok; simp [Journal.draws]
  | refused short =>
    cases ok
    simp [Journal.draws, Entry.drawn?, eq_comm]
  | misjudged => cases ok
  | filed short _ ih =>
    rw [← ih ok]
    simp [Journal.draws, Entry.drawn?]

theorem noRefusal_of_shown {part : Journal} (nothing : part.shown = []) : part.NoRefusal := by
  intro sample e mem
  have shown : sample ∈ part.shown := List.mem_filterMap.2 ⟨_, mem, rfl⟩
  rw [nothing] at shown
  cases shown

/-- Behind a part without refusals, a call that is refused is the only refusal. -/
theorem Journal.NoRefusal.eq_of_mem {earlier : Journal} (smooth : earlier.NoRefusal)
    {sample sample' : Tree} {e e' : SolverError}
    (mem : .mutated sample (.error e) ∈ earlier ++ [.mutated sample' (.error e')]) : e = e' := by
  rcases List.mem_append.1 mem with before | last
  · exact absurd before (smooth sample e)
  · cases List.mem_singleton.1 last
    rfl

/-- **A refusal to mutate comes in the last sweep,** which it cuts short. -/
theorem Journal.Splits.last_of_refusal {journal exploration : Journal} {ws : List Sweep}
    (h : journal.Splits exploration ws) {sample : Tree} {e : SolverError}
    (mem : .mutated sample (.error e) ∈ journal) :
    ∃ front w, ws = front ++ [w] ∧ w.Interrupted e := by
  rw [h.whole] at mem
  rcases List.mem_append.1 mem with early | mem
  · exact absurd early (noRefusal_of_shown h.explores sample e)
  obtain ⟨w, among, here⟩ := List.mem_flatMap.1 mem
  obtain ⟨front, back, rfl⟩ := List.append_of_mem among
  obtain ⟨-, -, complete | ⟨rfl, e', cut⟩⟩ := h.inPlace front w back rfl
  · exact absurd here (complete.2 sample e)
  · obtain ⟨earlier, sample', rest, calls, smooth, -⟩ := id cut
    obtain rfl := smooth.eq_of_mem (calls ▸ here)
    exact ⟨front, w, rfl, cut⟩

namespace Mutating

variable {target tries : Nat} {pools : Pools} {ws : List Sweep} {final : Swept}

/-- **How the sweeps end.**  They end early for the want of anything positive, without any having
been made; or with a refusal to mutate, as the last call; or else there are enough positive samples
or no tries left. -/
theorem ending (h : Mutating target tries pools ws (.ok final)) :
    (final.stop = some .noPositiveSeeds ∧ ws = [] ∧ final.pools = pools ∧
      pools.positive = [] ∧ 0 < target ∧ 0 < tries) ∨
    (∃ (earlier : Journal) (sample : Tree) (e : SolverError),
      final.stop = some (.ofSolver e) ∧ callsOf ws = earlier ++ [.mutated sample (.error e)] ∧
        earlier.NoRefusal) ∨
    (final.stop = none ∧ (callsOf ws).NoRefusal ∧
      (pools.positive ≠ [] ∨ target = 0 ∨ tries = 0) ∧
        (target ≤ final.pools.positive.length ∨ ws.length = tries)) := by
  induction h using ok_induction with
  | spent => exact .inr (.inr ⟨rfl, Journal.noRefusal_nil, .inr (.inr rfl), .inr rfl⟩)
  | reached tries pools h enough =>
    refine .inr (.inr ⟨rfl, Journal.noRefusal_nil, ?_, .inl enough⟩)
    by_cases barren : pools.positive = []
    · rw [barren] at enough
      exact .inr (.inl (Nat.le_zero.1 enough))
    · exact .inl barren
  | seedless tries pools h short none =>
    exact .inl ⟨rfl, rfl, rfl, none, Nat.zero_lt_of_lt short, Nat.succ_pos _⟩
  | interrupted tries w e h cut =>
    obtain ⟨earlier, sample, rest, calls, smooth, -⟩ := cut
    exact .inr (.inl ⟨earlier, sample, e, rfl, by simpa using calls, smooth⟩)
  | swept tries w later final _ _ seeds complete _ ih =>
    -- what was positive before a sweep still is, so only the first can lack a seed
    have seeds' : w.after.positive ≠ [] := by simp [Sweep.after, seeds]
    rcases ih with ⟨-, -, -, barren, -⟩ | ⟨earlier, sample, e, stop, calls, smooth⟩ |
      ⟨stop, smooth, -, enough⟩
    · exact absurd barren seeds'
    · refine .inr (.inl ⟨w.calls ++ earlier, sample, e, stop, ?_,
        Journal.noRefusal_append.2 ⟨complete.2, smooth⟩⟩)
      rw [callsOf_cons, calls, List.append_assoc]
    · exact .inr (.inr ⟨stop, Journal.noRefusal_append.2 ⟨complete.2, smooth⟩, .inl seeds,
        enough.imp_right (congrArg Nat.succ)⟩)

end Mutating

theorem finalStop_eq_targetReached_iff {target : Nat} {pools : Pools} :
    finalStop target pools = .targetReached ↔ target ≤ pools.positive.length := by
  unfold finalStop
  split <;> simp_all

theorem finalStop_eq_triesExhausted_iff {target : Nat} {pools : Pools} :
    finalStop target pools = .triesExhausted ↔ pools.positive.length < target := by
  unfold finalStop
  split
  · simp_all
  · next short => exact iff_of_true rfl (Nat.lt_of_not_le short)

/-- Nothing fresh is drawn in sweeps in which nothing is drawn. -/
theorem draws_callsOf {ws : List Sweep} (none : ∀ w ∈ ws, w.calls.draws = []) :
    (callsOf ws).draws = [] := by
  induction ws with
  | nil => rfl
  | cons w ws ih =>
    obtain ⟨first, later⟩ := List.forall_mem_cons.1 none
    rw [callsOf_cons, Journal.draws_append, first, ih later]
    rfl

/-- The end of a second phase, as its calls tell it. -/
theorem Mutating.stop_eq {target tries : Nat} {pools : Pools} {ws : List Sweep} {final : Swept}
    (h : Mutating target tries pools ws (.ok final)) :
    (∀ sample e, .mutated sample (.error e) ∈ callsOf ws → final.stop = some (.ofSolver e)) ∧
    ((callsOf ws).NoRefusal → 0 < target → 0 < tries → pools.positive = [] →
      final.stop = some .noPositiveSeeds ∧ ws = [] ∧ final.pools = pools) ∧
    ((callsOf ws).NoRefusal → target = 0 ∨ tries = 0 ∨ pools.positive ≠ [] →
      final.stop = none ∧ (target ≤ final.pools.positive.length ∨ ws.length = tries)) := by
  rcases h.ending with ⟨stop, rfl, same, barren, wanted, some⟩ |
    ⟨earlier, sample, e, stop, calls, smooth⟩ | ⟨stop, smooth, going, enough⟩
  · refine ⟨fun t e mem => (by cases mem), fun _ _ _ _ => ⟨stop, rfl, same⟩, fun _ going => ?_⟩
    rcases going with none | none | seeds
    · omega
    · omega
    · exact absurd barren seeds
  · have here : Entry.mutated sample (.error e) ∈ callsOf ws :=
      calls ▸ List.mem_append_right _ List.mem_cons_self
    refine ⟨fun t e' mem => ?_, fun none => absurd here (none sample e),
      fun none => absurd here (none sample e)⟩
    obtain rfl := smooth.eq_of_mem (calls ▸ mem)
    exact stop
  · refine ⟨fun t e mem => absurd mem (smooth t e), fun _ wanted some barren => ?_,
      fun _ _ => ⟨stop, enough⟩⟩
    rcases going with seeds | none | none
    · exact absurd barren seeds
    · omega
    · omega

namespace Course

variable {settings : SuiteSettings} {exploration : Journal} {ws : List Sweep} {d : Discovery}

/-- A refusal during exploration ends the discovery, unless it is that there is nothing new. -/
theorem of_refused (h : Course settings exploration ws (.ok d)) {e : SolverError}
    (refused : .error e ∈ exploration.draws) (final : e ≠ .exhausted) :
    ws = [] ∧ d.stop.Tells e := by
  generalize result : (Except.ok d : Except ConditionError Discovery) = out at h
  cases h with
  | misjudged => cases result
  | refused explored =>
    cases result
    obtain rfl := Option.some.inj ((explored.refused_iff rfl e).1 refused)
    exact ⟨rfl, Stop.ofSolver_tells _⟩
  | mutated explored mild =>
    exact absurd (mild e ((explored.refused_iff rfl e).1 refused)) final

/-- After an exploration without such a refusal there are sweeps, and they say how the discovery
ends, or it ends by the number of positive samples. -/
theorem exists_swept (h : Course settings exploration ws (.ok d))
    (mild : ∀ e, .error e ∈ exploration.draws → e = .exhausted) :
    ∃ swept, Mutating settings.targetNumSamples settings.numTries exploration.filed ws
        (.ok swept) ∧ d.pools = swept.pools ∧
      d.stop = swept.stop.getD (finalStop settings.targetNumSamples swept.pools) := by
  generalize result : (Except.ok d : Except ConditionError Discovery) = out at h
  cases h with
  | misjudged => cases result
  | refused explored final => exact absurd (mild _ ((explored.refused_iff rfl _).2 rfl)) final
  | @mutated found refusal _ outcome explored _ mutated =>
    obtain rfl : found = exploration.filed := (explored.filing.files found rfl).2
    cases outcome with
    | error e => cases result
    | ok swept =>
      cases result
      exact ⟨swept, mutated, rfl, rfl⟩

end Course

/-- **Why a discovery ends is exactly determined.**  With a judge that never fails, and the journal
split into exploration and sweeps, no sweep begins with enough positive samples.  A refusal during
exploration, unless it is that there is nothing new, is what the end tells of; then nothing was
mutated.  Otherwise a refusal to mutate cuts short the last sweep, and is what the end tells of.
Otherwise, where samples are wanted, there are tries and exploration filed nothing positive, the
discovery ends for that and leaves the pools as exploration did.  Otherwise it ends because there
are enough positive samples, or because there are not and all sweeps were made. -/
theorem run_stops_as_told {σ : Type} (sampler : Sampler σ) (never : sampler.NeverFails)
    (settings : SuiteSettings) (s : σ) :
    ∃ d exploration ws, (run sampler settings s).1 = .ok d ∧
      (journal sampler settings s).Splits exploration ws ∧ d.rounds = ws.map (·.after.sizes) ∧
      (∀ w ∈ ws, w.pooled.positive.length < settings.targetNumSamples) ∧
      (∀ e, .error e ∈ (journal sampler settings s).draws → e ≠ .exhausted →
        (journal sampler settings s).shown = [] ∧ d.rounds = [] ∧ d.stop.Tells e) ∧
      ((∀ e, .error e ∈ (journal sampler settings s).draws → e = .exhausted) →
        (∀ sample e, .mutated sample (.error e) ∈ journal sampler settings s →
          (∃ front w, ws = front ++ [w] ∧ w.Interrupted e) ∧ d.stop.Tells e) ∧
        ((journal sampler settings s).NoRefusal →
          (0 < settings.targetNumSamples → 0 < settings.numTries → exploration.filed.positive = [] →
            d.stop = .noPositiveSeeds ∧ d.rounds = [] ∧ d.pools = exploration.filed) ∧
          (settings.targetNumSamples = 0 ∨ settings.numTries = 0 ∨
              exploration.filed.positive ≠ [] →
            (d.stop = .targetReached ↔
              settings.targetNumSamples ≤ d.pools.positive.length) ∧
            (d.stop = .triesExhausted ↔
              d.pools.positive.length < settings.targetNumSamples) ∧
            (d.stop = .triesExhausted → d.rounds.length = settings.numTries)))) := by
  obtain ⟨d, exploration, ws, ok, whole, course⟩ := exists_ok_course never settings s
  obtain ⟨-, -, _, _, -, sweeping, -, rounds⟩ := course.exists_mutating
  have noted : d.rounds = ws.map (·.after.sizes) := rounds.trans sweeping.rounds_eq.1
  have splits : (journal sampler settings s).Splits exploration ws := whole ▸ course.splits
  have drawn : (journal sampler settings s).draws = exploration.draws := by
    rw [whole, Journal.draws_append, draws_callsOf sweeping.draws_eq_nil, List.append_nil]
  refine ⟨d, exploration, ws, ok, splits, noted, sweeping.short_of_mem,
    fun e mem final => ?_, fun mild => ?_⟩
  · obtain ⟨rfl, stop⟩ := course.of_refused (drawn ▸ mem) final
    refine ⟨?_, noted, stop⟩
    rw [whole, callsOf_nil, List.append_nil, splits.explores]
  obtain ⟨swept, mutated, pools, ended⟩ := course.exists_swept (drawn ▸ mild)
  obtain ⟨cut, barren, going⟩ := mutated.stop_eq
  refine ⟨fun sample e mem => ⟨splits.last_of_refusal mem, ?_⟩, fun smooth => ?_⟩
  · rw [whole] at mem
    have late := (List.mem_append.1 mem).resolve_left
      (noRefusal_of_shown splits.explores sample e)
    rw [ended, cut sample e late]
    exact Stop.ofSolver_tells e
  · rw [whole] at smooth
    have smooth' := (Journal.noRefusal_append.1 smooth).2
    rw [ended, pools]
    refine ⟨fun wanted some none => ?_, fun going' => ?_⟩
    · obtain ⟨stop, rfl, same⟩ := barren smooth' wanted some none
      exact ⟨by rw [stop, Option.getD_some], noted, same⟩
    · obtain ⟨stop, enough⟩ := going smooth' going'
      rw [stop, Option.getD_none]
      refine ⟨finalStop_eq_targetReached_iff, finalStop_eq_triesExhausted_iff, fun tired => ?_⟩
      have few := finalStop_eq_triesExhausted_iff.1 tired
      rw [noted, List.length_map]
      exact enough.resolve_left (Nat.not_le.2 few)

/-- Though there are enough positive samples at the end, the end tells of the refusal. -/
theorem run_stops_as_told_cutShort :
    ofTerminals.NeverFails ∧ ∃ d, (run ofTerminals threeInTwo cutShort).1 = .ok d ∧
      threeInTwo.targetNumSamples ≤ d.pools.positive.length ∧ d.stop = .solverTimeout := by
  obtain ⟨d, exploration, ws, ok, -, -, -, -, told⟩ :=
    run_stops_as_told ofTerminals neverFails_ofTerminals threeInTwo cutShort
  have draws : (journal ofTerminals threeInTwo cutShort).draws =
      [.ok (.terminal "a"), .ok (.node "<b>" [])] := rfl
  have last : (journal ofTerminals threeInTwo cutShort).getLast? =
      some (.mutated (.terminal "c") (.error (.timeout 5))) := rfl
  obtain ⟨cuts, -⟩ := told fun e mem => by simp [draws] at mem
  obtain ⟨-, -, timeout, -⟩ := cuts _ _ (List.mem_of_getLast? last)
  refine ⟨neverFails_ofTerminals, d, ok, ?_, timeout 5 rfl⟩
  obtain rfl := Except.ok.inj (ok.symm.trans run_cutShort)
  decide

end Discovery

end PreconditionMining
