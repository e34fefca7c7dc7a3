/-
# Sweeps over the pools

A sweep mutates the samples that were pooled when it began, positive ones first,
each of them once (`Sweep.Complete`), or up to the one that the solver refuses to
mutate (`Sweep.Interrupted`); mutants of the same sweep wait for the next one.
This is read off a journal that is split into exploration and sweeps
(`Journal.Splits`).

So a complete sweep adds as many samples as there were, and one that is cut short
adds fewer: the total doubles from sweep to sweep, and neither pool ever gets
smaller (`sweeps_mutate_snapshots`).
-/

import PreconditionMining.Proofs.Discovery.Filing

namespace PreconditionMining

namespace Discovery

/-- **A complete sweep:** each sample that was pooled when it began is mutated once, the positive
ones first, and none is refused. -/
def Sweep.Complete (w : Sweep) : Prop := w.calls.shown = w.pooled.toList ∧ w.calls.NoRefusal

/-- **A sweep that the solver cuts short:** the pooled samples are mutated in the same order up to
the first that is refused, and that is the last call. -/
def Sweep.Interrupted (w : Sweep) (e : SolverError) : Prop :=
  ∃ (earlier : Journal) (sample : Tree) (rest : List Tree),
    w.calls = earlier ++ [.mutated sample (.error e)] ∧ earlier.NoRefusal ∧
      w.pooled.toList = earlier.shown ++ sample :: rest

/-- **A journal is split into exploration and sweeps:** exploration mutates nothing, sweeps draw
nothing fresh, each sweep begins with all that was filed before it, and none but the last is cut
short. -/
structure Journal.Splits (journal exploration : Journal) (ws : List Sweep) : Prop where
  whole : journal = exploration ++ callsOf ws
  explores : exploration.shown = []
  inPlace : ∀ front w back, ws = front ++ w :: back →
    w.pooled = (exploration ++ callsOf front).filed ∧ w.calls.draws = [] ∧
      (w.Complete ∨ back = [] ∧ ∃ e, w.Interrupted e)

theorem Exploring.shown_eq_nil {quota tries : Nat} {pools : Pools} {part : Journal}
    {result : Except ConditionError (Pools × Option SolverError)}
    (h : Exploring quota tries pools part result) : part.shown = [] := by
  induction h with
  | filed short _ ih => rw [Journal.shown_append, ih]; rfl
  | _ => rfl

namespace Sweeping

variable {samples : List Tree} {mutants found : Pools} {calls : Journal} {e : SolverError}
  {result : Except ConditionError (Pools × Option SolverError)}

theorem draws_eq_nil (h : Sweeping samples mutants calls result) : calls.draws = [] := by
  induction h with
  | filed _ ih => rw [Journal.draws_append, ih]; rfl
  | _ => rfl

theorem noRefusal_pair (sample mutant : Tree) (verdict : Except ConditionError Bool) :
    Journal.NoRefusal [.mutated sample (.ok mutant), .judged mutant verdict] := by
  intro t e mem
  simp at mem

/-- A sweep that is not cut short mutates all its samples. -/
theorem complete (h : Sweeping samples mutants calls result) (ok : result = .ok (found, none)) :
    calls.shown = samples ∧ calls.NoRefusal ∧
      found.sizes.total = mutants.sizes.total + samples.length := by
  induction h with
  | done =>
    cases ok
    exact ⟨rfl, Journal.noRefusal_nil, rfl⟩
  | refused => cases ok
  | misjudged => cases ok
  | @filed sample mutant rest mutants triggered later result others ih =>
    obtain ⟨shown, smooth, total⟩ := ih ok
    refine ⟨by rw [Journal.shown_append, shown]; rfl,
      Journal.noRefusal_append.2 ⟨noRefusal_pair sample mutant _, smooth⟩, ?_⟩
    rw [total, Pools.total_sizes_push, List.length_cons]
    omega

/-- A sweep that is cut short mutates its samples up to the one that is refused. -/
theorem interrupted (h : Sweeping samples mutants calls result)
    (ok : result = .ok (found, some e)) :
    (∃ (earlier : Journal) (sample : Tree) (rest : List Tree),
      calls = earlier ++ [.mutated sample (.error e)] ∧ earlier.NoRefusal ∧
        samples = earlier.shown ++ sample :: rest) ∧
      found.sizes.total < mutants.sizes.total + samples.length := by
  induction h with
  | done => cases ok
  | @refused sample rest mutants e' =>
    cases ok
    exact ⟨⟨[], sample, rest, rfl, Journal.noRefusal_nil, rfl⟩, by simp⟩
  | misjudged => cases ok
  | @filed sample mutant rest mutants triggered later result others ih =>
    obtain ⟨⟨earlier, refused, unshown, rfl, smooth, rfl⟩, total⟩ := ih ok
    refine ⟨⟨[.mutated sample (.ok mutant), .judged mutant (.ok triggered)] ++ earlier, refused,
      unshown, by rw [List.append_assoc],
      Journal.noRefusal_append.2 ⟨noRefusal_pair sample mutant _, smooth⟩, rfl⟩, ?_⟩
    rw [Pools.total_sizes_push] at total
    rw [List.length_cons]
    omega

end Sweeping

/-- A sweep that is not cut short doubles the samples. -/
theorem Sweeping.sweep_complete {pools mutants : Pools} {calls : Journal}
    (h : Sweeping pools.toList .empty calls (.ok (mutants, none))) :
    (Sweep.mk pools calls).Complete ∧ calls.filed = mutants ∧
      (pools ++ mutants).sizes.total = 2 * pools.sizes.total := by
  obtain ⟨shown, smooth, total⟩ := h.complete rfl
  refine ⟨⟨shown, smooth⟩, (h.filing.files mutants rfl).2.symm, ?_⟩
  rw [Pools.total_sizes_append, total, ← Pools.total_sizes_eq, Nat.two_mul]
  exact congrArg (pools.sizes.total + ·) (Nat.zero_add _)

/-- A sweep that is cut short adds fewer samples than there were. -/
theorem Sweeping.sweep_interrupted {pools mutants : Pools} {calls : Journal} {e : SolverError}
    (h : Sweeping pools.toList .empty calls (.ok (mutants, some e))) :
    (Sweep.mk pools calls).Interrupted e ∧ calls.filed = mutants ∧
      (pools ++ mutants).sizes.total < 2 * pools.sizes.total := by
  obtain ⟨cut, total⟩ := h.interrupted rfl
  refine ⟨cut, (h.filing.files mutants rfl).2.symm, ?_⟩
  rw [← Pools.total_sizes_eq] at total
  have nothing : Pools.empty.sizes.total = 0 := rfl
  rw [Pools.total_sizes_append]
  omega

theorem Sweep.Complete.not_interrupted {w : Sweep} {e : SolverError} (h : w.Complete) :
    ¬ w.Interrupted e := by
  rintro ⟨earlier, sample, rest, calls, -⟩
  exact h.2 sample e (calls ▸ List.mem_append_right _ List.mem_cons_self)

namespace Mutating

variable {target tries : Nat} {pools : Pools} {ws : List Sweep} {final : Swept}
  {result : Except ConditionError Swept}

/-- No more sweeps are made than there are tries. -/
theorem length_le (h : Mutating target tries pools ws result) : ws.length ≤ tries := by
  induction h with
  | swept short seeds swept _ ih => exact Nat.succ_le_succ ih
  | _ => simp

/-- No sweep begins with enough positive samples. -/
theorem short_of_mem (h : Mutating target tries pools ws result) :
    ∀ w ∈ ws, w.pooled.positive.length < target := by
  induction h with
  | misjudged short seeds swept => simpa using short
  | interrupted short seeds swept => simpa using short
  | swept short seeds swept _ ih => exact List.forall_mem_cons.2 ⟨short, ih⟩
  | _ => simp

theorem draws_eq_nil (h : Mutating target tries pools ws result) :
    ∀ w ∈ ws, w.calls.draws = [] := by
  induction h with
  | misjudged short seeds swept => simpa using swept.draws_eq_nil
  | interrupted short seeds swept => simpa using swept.draws_eq_nil
  | swept short seeds swept _ ih => exact List.forall_mem_cons.2 ⟨swept.draws_eq_nil, ih⟩
  | _ => simp

/-- **Induction on the sweeps of a discovery that succeeds,** in terms of the sweeps: each of
them is complete and doubles the samples, or it is cut short and nothing comes after it. -/
@[elab_as_elim]
theorem ok_induction
    {motive : ∀ tries pools ws final, Mutating target tries pools ws (.ok final) → Prop}
    (spent : ∀ pools h, motive 0 pools [] ⟨pools, [], none⟩ h)
    (reached : ∀ tries pools h, target ≤ pools.positive.length →
      motive (tries + 1) pools [] ⟨pools, [], none⟩ h)
    (seedless : ∀ tries pools h, pools.positive.length < target → pools.positive = [] →
      motive (tries + 1) pools [] ⟨pools, [], some .noPositiveSeeds⟩ h)
    (interrupted : ∀ tries (w : Sweep) e h, w.Interrupted e →
      w.after.sizes.total < 2 * w.pooled.sizes.total →
      motive (tries + 1) w.pooled [w] ⟨w.after, [w.after.sizes], some (.ofSolver e)⟩ h)
    (swept : ∀ tries (w : Sweep) later final rest h, w.pooled.positive ≠ [] → w.Complete →
      w.after.sizes.total = 2 * w.pooled.sizes.total → motive tries w.after later final rest →
      motive (tries + 1) w.pooled (w :: later)
        { final with rounds := w.after.sizes :: final.rounds } h)
    (h : Mutating target tries pools ws (.ok final)) : motive tries pools ws final h := by
  have each : ∀ tries pools ws result, Mutating target tries pools ws result → ∀ final,
      result = .ok final → ∀ h, motive tries pools ws final h := by
    intro tries pools ws result h
    induction h with
    | spent => rintro final ⟨⟩ h; exact spent _ h
    | reached enough => rintro final ⟨⟩ h; exact reached _ _ h enough
    | seedless short none => rintro final ⟨⟩ h; exact seedless _ _ h short none
    | misjudged => rintro final ⟨⟩
    | interrupted short seeds sweeping =>
      rintro final ⟨⟩ h
      obtain ⟨cut, rfl, fewer⟩ := sweeping.sweep_interrupted
      exact interrupted _ ⟨_, _⟩ _ h cut fewer
    | @swept _ _ _ _ _ result short seeds sweeping rest ih =>
      cases result with
      | error e => rintro final ⟨⟩
      | ok r =>
        rintro final ⟨⟩ h
        obtain ⟨complete, rfl, twice⟩ := sweeping.sweep_complete
        exact swept _ ⟨_, _⟩ _ r rest h seeds complete twice (ih r rfl rest)
  exact each _ _ _ _ h final rfl h

/-- **The sizes that are noted are those after each sweep,** and the last of them are the sizes
at the end. -/
theorem rounds_eq (h : Mutating target tries pools ws (.ok final)) :
    final.rounds = ws.map (·.after.sizes) ∧
      final.rounds.getLast?.getD pools.sizes = final.pools.sizes := by
  induction h using ok_induction with
  | spent => exact ⟨rfl, rfl⟩
  | reached => exact ⟨rfl, rfl⟩
  | seedless => exact ⟨rfl, rfl⟩
  | interrupted => exact ⟨rfl, rfl⟩
  | swept _ w later final _ _ _ _ _ ih =>
    obtain ⟨rounds, last⟩ := ih
    refine ⟨by rw [List.map_cons, ← rounds], ?_⟩
    rw [List.getLast?_cons]
    exact last

/-- **Neither pool gets smaller.** -/
theorem grows (h : Mutating target tries pools ws (.ok final)) :
    (pools.sizes :: final.rounds).Pairwise fun earlier later => later.dominates earlier = true := by
  induction h using ok_induction with
  | spent => simp
  | reached => simp
  | seedless => simp
  | interrupted _ w => simpa [Sweep.after] using Pools.sizes_append_dominates w.pooled w.calls.filed
  | swept _ w later final _ _ _ _ _ ih =>
    have first := Pools.sizes_append_dominates w.pooled w.calls.filed
    refine List.pairwise_cons.2 ⟨List.forall_mem_cons.2 ⟨first, fun sizes mem => ?_⟩, ih⟩
    exact PoolSizes.dominates_trans ((List.pairwise_cons.1 ih).1 sizes mem) first

/-- **Each sweep has its place:** it begins with all that was filed before, after as many
doublings as there were sweeps; it is complete and doubles the samples, or it is the last, and cut
short. -/
theorem inPlace (h : Mutating target tries pools ws (.ok final)) :
    ∀ front w back, ws = front ++ w :: back →
      w.pooled = pools ++ (callsOf front).filed ∧
      w.pooled.sizes.total = Nat.pow 2 front.length * pools.sizes.total ∧
      (w.Complete ∧ w.after.sizes.total = 2 * w.pooled.sizes.total ∨
        back = [] ∧ (∃ e, w.Interrupted e) ∧ w.after.sizes.total < 2 * w.pooled.sizes.total) := by
  induction h using ok_induction with
  | interrupted _ w e _ cut fewer =>
    intro front v back eq
    obtain ⟨rfl, rfl, rfl⟩ : front = [] ∧ v = w ∧ back = [] := by
      cases front with
      | nil => simpa [eq_comm] using eq
      | cons _ _ => simp at eq
    exact ⟨by simp, by simp, .inr ⟨rfl, ⟨e, cut⟩, fewer⟩⟩
  | swept _ w later final _ _ _ complete twice ih =>
    intro front v back eq
    cases front with
    | nil =>
      obtain ⟨rfl, rfl⟩ := List.cons.inj eq
      exact ⟨by simp, by simp, .inl ⟨complete, twice⟩⟩
    | cons _ front =>
      -- the induction counts from the pools that the first sweep left: one doubling fewer
      obtain ⟨rfl, rfl⟩ := List.cons.inj eq
      obtain ⟨pooled, doubled, made⟩ := ih front v back rfl
      refine ⟨?_, ?_, made⟩
      · rw [pooled, callsOf_cons, Journal.filed_append, Sweep.after, Pools.append_assoc]
      · rw [doubled, twice]
        exact (Nat.mul_assoc (Nat.pow 2 front.length) 2 w.pooled.sizes.total).symm
  | _ =>
    intro front w back eq
    simp at eq

end Mutating

namespace Course

variable {settings : SuiteSettings} {exploration : Journal} {ws : List Sweep} {d : Discovery}

/-- The sweeps of a discovery that succeeds start from what exploration filed; where exploration
ended in a refusal there is none. -/
theorem exists_mutating (h : Course settings exploration ws (.ok d)) :
    d.exploration = exploration.filed.sizes ∧ exploration.shown = [] ∧
      ∃ tries swept, tries ≤ settings.numTries ∧
        Mutating settings.targetNumSamples tries exploration.filed ws (.ok swept) ∧
        d.pools = swept.pools ∧ d.rounds = swept.rounds := by
  generalize result : (Except.ok d : Except ConditionError Discovery) = out at h
  cases h with
  | misjudged => cases result
  | @refused found e explored final =>
    cases result
    obtain rfl : found = exploration.filed := (explored.filing.files found rfl).2
    exact ⟨rfl, explored.shown_eq_nil, 0, _, Nat.zero_le _, .spent, rfl, rfl⟩
  | @mutated found _ _ outcome explored mild mutated =>
    obtain rfl : found = exploration.filed := (explored.filing.files found rfl).2
    cases outcome with
    | error e => cases result
    | ok swept =>
      cases result
      exact ⟨rfl, explored.shown_eq_nil, _, swept, Nat.le_refl _, mutated, rfl, rfl⟩

/-- **The journal of a discovery that succeeds is split** by its course. -/
theorem splits (h : Course settings exploration ws (.ok d)) :
    Journal.Splits (exploration ++ callsOf ws) exploration ws := by
  obtain ⟨-, explores, tries, swept, -, mutating, -, -⟩ := h.exists_mutating
  refine ⟨rfl, explores, fun front w back eq => ?_⟩
  obtain ⟨pooled, -, made⟩ := mutating.inPlace front w back eq
  refine ⟨by rw [pooled, Journal.filed_append], ?_, ?_⟩
  · exact mutating.draws_eq_nil w (eq ▸ List.mem_append_right _ List.mem_cons_self)
  · exact made.imp And.left fun ⟨last, cut, _⟩ => ⟨last, cut⟩

end Course

/-- **Sweeps take snapshots.**  With a judge that never fails, the journal of a discovery is split
into exploration and sweeps.  The sizes of the pools are noted after each sweep, at most as often as
there are tries; from exploration on neither pool ever gets smaller, and the last sizes are those
at the end.  Each complete sweep doubles the total, so that after `k` of them it is `2 ^ k` times
that of exploration; a sweep that is cut short is the last, takes nothing away and adds fewer
samples than there were. -/
theorem sweeps_mutate_snapshots {σ : Type} (sampler : Sampler σ) (never : sampler.NeverFails)
    (settings : SuiteSettings) (s : σ) :
    ∃ d exploration ws, (run sampler settings s).1 = .ok d ∧
      (journal sampler settings s).Splits exploration ws ∧
      d.exploration = exploration.filed.sizes ∧ d.rounds = ws.map (·.after.sizes) ∧
      d.rounds.length ≤ settings.numTries ∧
      (d.exploration :: d.rounds).Pairwise (fun earlier later => later.dominates earlier = true) ∧
      d.rounds.getLast?.getD d.exploration = d.pools.sizes ∧
      ∀ front w back, ws = front ++ w :: back →
        (w.Complete → w.after.sizes.total = 2 * w.pooled.sizes.total ∧
          w.after.sizes.total = Nat.pow 2 (front.length + 1) * d.exploration.total) ∧
        ∀ e, w.Interrupted e → back = [] ∧ w.pooled.sizes.total ≤ w.after.sizes.total ∧
          w.after.sizes.total < 2 * w.pooled.sizes.total := by
  obtain ⟨d, exploration, ws, ok, whole, course⟩ := exists_ok_course never settings s
  obtain ⟨sizes, -, tries, swept, budget, mutating, pools, rounds⟩ := course.exists_mutating
  obtain ⟨noted, last⟩ := mutating.rounds_eq
  refine ⟨d, exploration, ws, ok, whole ▸ course.splits, sizes, rounds.trans noted, ?_, ?_, ?_, ?_⟩
  · rw [rounds, noted, List.length_map]
    exact Nat.le_trans mutating.length_le budget
  · rw [sizes, rounds]
    exact mutating.grows
  · rw [sizes, rounds, pools]
    exact last
  · intro front w back eq
    obtain ⟨-, doubled, made⟩ := mutating.inPlace front w back eq
    rw [← sizes] at doubled
    refine ⟨fun complete => ?_, fun e cut => ?_⟩
    · rcases made with ⟨-, twice⟩ | ⟨-, ⟨e, cut⟩, -⟩
      · refine ⟨twice, ?_⟩
        rw [twice, doubled, Nat.mul_comm 2, Nat.mul_right_comm]
        rfl
      · exact absurd cut complete.not_interrupted
    · rcases made with ⟨complete, -⟩ | ⟨rfl, -, fewer⟩
      · exact absurd cut complete.not_interrupted
      · refine ⟨rfl, ?_, fewer⟩
        rw [Sweep.after, Pools.total_sizes_append]
        exact Nat.le_add_right _ _

/-- Two samples are doubled, and of the four then pooled one is mutated before a refusal. -/
theorem sweeps_mutate_snapshots_cutShort :
    ofTerminals.NeverFails ∧ ∃ exploration complete cut,
      (run ofTerminals threeInTwo cutShort).1 = .ok cutShortFound ∧
      (journal ofTerminals threeInTwo cutShort).Splits exploration [complete, cut] ∧
      complete.Complete ∧ complete.after.sizes.total = 4 ∧
      (∃ e, cut.Interrupted e) ∧ cut.after.sizes.total = 5 := by
  obtain ⟨d, exploration, ws, ok, splits, sizes, rounds, -, -, -, each⟩ :=
    sweeps_mutate_snapshots ofTerminals neverFails_ofTerminals threeInTwo cutShort
  obtain rfl := Except.ok.inj (ok.symm.trans run_cutShort)
  obtain ⟨complete, cut, rfl⟩ : ∃ complete cut, ws = [complete, cut] := by
    have two : ws.length = 2 := by simpa [cutShortFound] using (congrArg List.length rounds).symm
    match ws, two with
    | [complete, cut], _ => exact ⟨complete, cut, rfl⟩
  obtain ⟨first, second⟩ : complete.after.sizes = ⟨2, 2⟩ ∧ cut.after.sizes = ⟨3, 2⟩ := by
    simpa [cutShortFound, eq_comm] using rounds
  have doubled : complete.Complete :=
    (splits.inPlace [] complete [cut] rfl).2.2.resolve_right fun last => nomatch last.1
  refine ⟨neverFails_ofTerminals, exploration, complete, cut, ok, splits, doubled, ?_, ?_, ?_⟩
  · rw [((each [] complete [cut] rfl).1 doubled).2]
    rfl
  · refine (splits.inPlace [complete] cut [] rfl).2.2.elim (fun again => ?_) And.right
    have total := ((each [complete] cut [] rfl).1 again).2
    rw [second] at total
    cases total
  · rw [second]
    rfl

end Discovery

end PreconditionMining
