/-
# What exploration finds, and when it stops

Exploration draws fresh samples and judges each of them (`Exploring.drawn_eq`).  A sample
that is judged goes to one pool or the other (`Journal.filed_perm`), and the sweeps only
add to the pools behind them.  So the first samples of the pools of a discovery, as many as
it says exploration found, are the samples that its exploration drew, in an order of their
own: `Course.explored_perm`.

Each draw makes the smaller pool larger by one at most, and a draw is made only while the
smaller pool has no more than the quota.  So it never has more than one beyond the quota,
and it has exactly that where exploration stops with tries left (`Exploring.stops`).  The
same holds of the discovery, which draws nothing after its exploration:
`exploration_stops`.
-/

import PreconditionMining.Proofs.Discovery.Ending

namespace PreconditionMining

/-- The size of the smaller pool. -/
def PoolSizes.smaller (s : PoolSizes) : Nat := min s.positive s.negative

/-- The smaller pool has more than a quota when both pools have. -/
theorem Pools.lt_smaller_iff {pools : Pools} {quota : Nat} :
    quota < pools.sizes.smaller ↔
      quota < pools.positive.length ∧ quota < pools.negative.length :=
  Nat.lt_min

theorem Pools.smaller_le_of_short {pools : Pools} {quota : Nat}
    (short : ¬ (quota < pools.positive.length ∧ quota < pools.negative.length)) :
    pools.sizes.smaller ≤ quota := Nat.le_of_not_lt (mt Pools.lt_smaller_iff.1 short)

/-- Filing one more sample makes the smaller pool larger by one at most. -/
theorem Pools.smaller_push_le (pools : Pools) (t : Tree) (b : Bool) :
    (pools.push t b).sizes.smaller ≤ pools.sizes.smaller + 1 := by
  cases b <;> simp [sizes, PoolSizes.smaller] <;> omega

namespace Discovery

/-- The fresh samples that a solver gave. -/
def Journal.fresh (journal : Journal) : List Tree := journal.draws.filterMap Except.toOption

@[simp] theorem Journal.fresh_append (j k : Journal) : fresh (j ++ k) = fresh j ++ fresh k := by
  rw [fresh, Journal.draws_append, List.filterMap_append]
  rfl

/-- **Exploration judges what it draws,** and nothing else. -/
theorem Exploring.drawn_eq {quota tries : Nat} {pools : Pools} {part : Journal}
    {result : Except ConditionError (Pools × Option SolverError)}
    (h : Exploring quota tries pools part result) : part.verdicts.map Prod.fst = part.fresh := by
  induction h with
  | filed short _ ih => rw [Journal.verdicts_append, List.map_append, ih, Journal.fresh_append]; rfl
  | _ => rfl

/-- Samples that all have a verdict are parted by it. -/
theorem sampleOf?_perm {verdicts : List (Tree × Except ConditionError Bool)}
    (told : ∀ judged ∈ verdicts, ∃ b, judged.2 = .ok b) :
    (verdicts.filterMap (sampleOf? true) ++ verdicts.filterMap (sampleOf? false)).Perm
      (verdicts.map Prod.fst) := by
  induction verdicts with
  | nil => exact .refl []
  | cons judged rest ih =>
    obtain ⟨sample, verdict⟩ := judged
    obtain ⟨⟨b, rfl⟩, others⟩ := List.forall_mem_cons.1 told
    have parted := (ih others).cons sample
    cases b with
    | true => exact parted
    | false => exact List.perm_middle.trans parted

/-- Each sample that is judged goes to one of the two pools. -/
theorem Journal.filed_perm {journal : Journal} (smooth : journal.NoMisuse) :
    journal.filed.toList.Perm (journal.verdicts.map Prod.fst) := by
  refine sampleOf?_perm fun judged mem => ?_
  obtain ⟨sample, verdict⟩ := judged
  cases verdict with
  | ok b => exact ⟨b, rfl⟩
  | error e => exact absurd (mem_verdicts.1 mem) (smooth sample e)

/-- The samples that were found by exploration. -/
def explored (d : Discovery) : Pools :=
  ⟨d.pools.positive.take d.exploration.positive, d.pools.negative.take d.exploration.negative⟩

theorem Course.drawn_eq {settings : SuiteSettings} {exploration : Journal} {ws : List Sweep}
    {result : Except ConditionError Discovery} (h : Course settings exploration ws result) :
    exploration.verdicts.map Prod.fst = exploration.fresh := by
  cases h with
  | misjudged explored => exact explored.drawn_eq
  | refused explored => exact explored.drawn_eq
  | mutated explored => exact explored.drawn_eq

/-- What exploration filed are the fresh samples. -/
theorem Course.filed_perm {settings : SuiteSettings} {exploration : Journal} {ws : List Sweep}
    {d : Discovery} (h : Course settings exploration ws (.ok d)) :
    exploration.filed.toList.Perm exploration.fresh := by
  obtain ⟨smooth, -⟩ := h.filing.files d.pools rfl
  rw [← h.drawn_eq]
  exact Journal.filed_perm (Journal.noMisuse_append.1 smooth).1

/-- **What exploration found are the fresh samples,** in one pool or the other. -/
theorem Course.explored_perm {settings : SuiteSettings} {exploration : Journal} {ws : List Sweep}
    {d : Discovery} (h : Course settings exploration ws (.ok d)) :
    d.explored.toList.Perm exploration.fresh := by
  obtain ⟨-, pools⟩ := h.filing.files d.pools rfl
  obtain ⟨sizes, -⟩ := h.exists_mutating
  rw [Pools.empty_append, Journal.filed_append] at pools
  have found : d.explored = exploration.filed := by
    rw [explored, pools, sizes]
    simp [Pools.sizes]
  exact found ▸ h.filed_perm

namespace Exploring

variable {quota tries : Nat} {pools found : Pools} {part : Journal} {refusal : Option SolverError}
  {result : Except ConditionError (Pools × Option SolverError)}

/-- Exploration draws no more often than it has tries. -/
theorem length_draws_le (h : Exploring quota tries pools part result) :
    part.draws.length ≤ tries := by
  induction h with
  | spent => exact Nat.le_refl 0
  | filled => exact Nat.zero_le _
  | refused => exact Nat.succ_le_succ (Nat.zero_le _)
  | misjudged => exact Nat.succ_le_succ (Nat.zero_le _)
  | filed short _ ih =>
    rw [Journal.draws_append, List.length_append, Nat.add_comm]
    exact Nat.succ_le_succ ih

/-- The first draw is made from the pools that there are. -/
theorem first_draw (short : ¬ (quota < pools.positive.length ∧ quota < pools.negative.length)) :
    (pools ++ Journal.filed []).sizes.smaller ≤ quota ∧ (Journal.draws []).length < tries + 1 ∧
      ∀ e, .error e ∉ Journal.draws [] := by
  rw [Journal.filed_nil, Pools.append_empty]
  exact ⟨Pools.smaller_le_of_short short, Nat.succ_pos _, by simp [Journal.draws]⟩

/-- **When exploration draws:** the smaller pool has no more than the quota, there are tries left,
and no draw was refused. -/
theorem of_draw (h : Exploring quota tries pools part result) {front back : Journal}
    {answer : Except SolverError Tree} (split : part = front ++ .solved answer :: back) :
    (pools ++ front.filed).sizes.smaller ≤ quota ∧ front.draws.length < tries ∧
      ∀ e, .error e ∉ front.draws := by
  induction h generalizing front with
  | spent => simp at split
  | filled => simp at split
  | refused short =>
    rcases front with _ | ⟨first, front⟩
    · exact first_draw short
    · simp at split
  | misjudged short =>
    rcases front with _ | ⟨first, _ | ⟨second, front⟩⟩
    · exact first_draw short
    · simp at split
    · simp at split
  | @filed tries pools sample triggered later result short rest ih =>
    rcases front with _ | ⟨first, _ | ⟨second, front⟩⟩
    · exact first_draw short
    · simp at split
    · -- the draw comes after the first sample, which is filed by then
      obtain ⟨rfl, rfl, here⟩ : .solved (.ok sample) = first ∧
          .judged sample (.ok triggered) = second ∧ later = front ++ .solved answer :: back := by
        simpa using split
      obtain ⟨low, budget, unrefused⟩ := ih here
      have fetched : Entry.verdict? (.solved (.ok sample)) = none := rfl
      have filed : pools ++ Journal.filed
          (.solved (.ok sample) :: .judged sample (.ok triggered) :: front) =
            pools.push sample triggered ++ Journal.filed front := by
        rw [← Journal.append_filed_judged pools fetched, Pools.append_assoc,
          ← Journal.filed_append]
        rfl
      rw [filed]
      refine ⟨low, Nat.succ_lt_succ budget, fun e => ?_⟩
      simpa [Journal.draws, Entry.drawn?] using unrefused e

/-- **Exploration stops one beyond the quota,** or when all its tries are made, if no draw is
refused; and it never goes further. -/
theorem stops (h : Exploring quota tries pools part result) (ok : result = .ok (found, refusal))
    (few : pools.sizes.smaller ≤ quota + 1) :
    found.sizes.smaller ≤ quota + 1 ∧
      (refusal = none → found.sizes.smaller = quota + 1 ∨ part.fresh.length = tries) := by
  induction h with
  | spent =>
    cases ok
    exact ⟨few, fun _ => .inr rfl⟩
  | filled full =>
    cases ok
    exact ⟨few, fun _ => .inl (Nat.le_antisymm few (Pools.lt_smaller_iff.2 full))⟩
  | refused short =>
    cases ok
    exact ⟨few, fun none => by cases none⟩
  | misjudged short => cases ok
  | @filed tries pools sample triggered later result short rest ih =>
    have grown := pools.smaller_push_le sample triggered
    obtain ⟨bound, ended⟩ :=
      ih ok (Nat.le_trans grown (Nat.succ_le_succ (Pools.smaller_le_of_short short)))
    refine ⟨bound, fun none => (ended none).imp_right fun all => ?_⟩
    rw [Journal.fresh_append, List.length_append, all, Nat.add_comm]
    rfl

end Exploring

namespace Course

variable {settings : SuiteSettings} {exploration : Journal} {ws : List Sweep} {d : Discovery}

/-- A discovery that succeeds has explored, and notes the sizes of what was found. -/
theorem exists_exploring (h : Course settings exploration ws (.ok d)) :
    ∃ found refusal, Exploring settings.initialTarget settings.numTries .empty exploration
        (.ok (found, refusal)) ∧ d.exploration = found.sizes := by
  generalize result : (Except.ok d : Except ConditionError Discovery) = out at h
  cases h with
  | misjudged => cases result
  | @refused found e explored =>
    cases result
    exact ⟨found, some e, explored, rfl⟩
  | @mutated found refusal _ outcome explored =>
    cases outcome with
    | error e => cases result
    | ok swept =>
      cases result
      exact ⟨found, refusal, explored, rfl⟩

/-- As many samples are found as are drawn. -/
theorem total_exploration (h : Course settings exploration ws (.ok d)) :
    d.exploration.total = exploration.fresh.length := by
  rw [h.exists_mutating.1, Pools.total_sizes_eq, h.filed_perm.length_eq]

end Course

namespace Journal.Splits

variable {journal exploration : Journal} {ws : List Sweep}

theorem draws_sweeps (h : journal.Splits exploration ws) : (callsOf ws).draws = [] := by
  refine draws_callsOf fun w mem => ?_
  obtain ⟨front, back, split⟩ := List.append_of_mem mem
  exact (h.inPlace front w back split).2.1

/-- **All draws are made by exploration.** -/
theorem draws_eq (h : journal.Splits exploration ws) : journal.draws = exploration.draws := by
  rw [h.whole, Journal.draws_append, h.draws_sweeps, List.append_nil]

/-- What comes before a draw is a part of exploration. -/
theorem exists_of_draw (h : journal.Splits exploration ws) {front back : Journal}
    {answer : Except SolverError Tree} (split : journal = front ++ .solved answer :: back) :
    ∃ between, exploration = front ++ .solved answer :: between := by
  rw [h.whole] at split
  rcases List.append_eq_append_iff.1 split with ⟨early, -, late⟩ | ⟨between, here, rest⟩
  · have drawn : answer ∈ (callsOf ws).draws := by
      rw [late, draws_append]
      exact List.mem_append_right _ List.mem_cons_self
    rw [h.draws_sweeps] at drawn
    cases drawn
  · rcases between with _ | ⟨entry, between⟩
    · have drawn : answer ∈ (callsOf ws).draws := by
        rw [List.nil_append] at rest
        rw [← rest]
        exact List.mem_cons_self
      rw [h.draws_sweeps] at drawn
      cases drawn
    · obtain ⟨rfl, -⟩ := List.cons.inj rest
      exact ⟨between, here⟩

end Journal.Splits

/-- **Exploration stops when it should.**  With a judge that never fails, and with a fifth of the
target as the quota: a fresh sample is drawn only while one of the pools has no more samples than
the quota, only while there are tries left, and only if no draw was refused before.  Where none is
refused, exploration goes on until the smaller pool has one sample beyond the quota, or until it
has drawn as many samples as there are tries.  In every case the smaller pool has no more than
that, and what was found are at most as many samples as there are tries. -/
theorem exploration_stops {σ : Type} (sampler : Sampler σ) (never : sampler.NeverFails)
    (settings : SuiteSettings) (s : σ) :
    ∃ d exploration ws, (run sampler settings s).1 = .ok d ∧
      (journal sampler settings s).Splits exploration ws ∧
      d.exploration = exploration.filed.sizes ∧
      (∀ (front : Journal) answer back,
        journal sampler settings s = front ++ .solved answer :: back →
          ¬ (settings.targetNumSamples / 5 < front.filed.positive.length ∧
            settings.targetNumSamples / 5 < front.filed.negative.length) ∧
          front.draws.length < settings.numTries ∧ ∀ e, .error e ∉ front.draws) ∧
      (journal sampler settings s).draws.length ≤ settings.numTries ∧
      ((∀ e, .error e ∉ (journal sampler settings s).draws) →
        d.exploration.smaller = settings.targetNumSamples / 5 + 1 ∨
          (journal sampler settings s).fresh.length = settings.numTries) ∧
      d.exploration.smaller ≤ settings.targetNumSamples / 5 + 1 ∧
      d.exploration.total = (journal sampler settings s).fresh.length ∧
      d.exploration.total ≤ settings.numTries := by
  obtain ⟨d, exploration, ws, ok, whole, course⟩ := exists_ok_course never settings s
  have splits : (journal sampler settings s).Splits exploration ws := whole ▸ course.splits
  obtain ⟨found, refusal, exploring, sizes⟩ := course.exists_exploring
  have total := course.total_exploration
  have budget := exploring.length_draws_le
  obtain ⟨bound, ended⟩ := exploring.stops rfl (Nat.zero_le _)
  have drawn : (journal sampler settings s).fresh = exploration.fresh :=
    congrArg (List.filterMap Except.toOption) splits.draws_eq
  have few : exploration.fresh.length ≤ exploration.draws.length := List.length_filterMap_le _ _
  refine ⟨d, exploration, ws, ok, splits, course.exists_mutating.1, fun front answer back split => ?_,
    splits.draws_eq ▸ budget, fun unrefused => ?_, sizes ▸ bound, drawn ▸ total, ?_⟩
  · obtain ⟨between, here⟩ := splits.exists_of_draw split
    obtain ⟨low, left, unrefused⟩ := exploring.of_draw here
    refine ⟨fun both => ?_, left, unrefused⟩
    rw [Pools.empty_append] at low
    exact Nat.not_lt.2 low (Pools.lt_smaller_iff.2 both)
  · rw [splits.draws_eq] at unrefused
    have none : refusal = none :=
      Option.eq_none_iff_forall_ne_some.2 fun e refused =>
        unrefused e ((exploring.refused_iff rfl e).2 refused)
    rw [sizes, drawn]
    exact ended none
  · rw [total]
    exact Nat.le_trans few budget

/-- Settings with a quota of one. -/
def fiveInHundred : SuiteSettings := { targetNumSamples := 5, numTries := 100 }

/-- Answers of which every other one is positive. -/
def everyOther : List (Except SolverError Tree) :=
  [.ok (.terminal "a"), .ok (.node "<b>" []), .ok (.terminal "c"), .ok (.node "<d>" []),
    .ok (.terminal "e")]

/-- With the fourth sample there are two in each pool, and the fifth answer is left to mutation. -/
theorem exploration_stops_everyOther :
    ofTerminals.NeverFails ∧ ∃ d, (run ofTerminals fiveInHundred everyOther).1 = .ok d ∧
      (journal ofTerminals fiveInHundred everyOther).fresh.length = 4 ∧
      d.exploration.smaller = 2 ∧ d.exploration.total = 4 := by
  obtain ⟨d, exploration, ws, ok, -, -, -, -, full, -, total, -⟩ :=
    exploration_stops ofTerminals neverFails_ofTerminals fiveInHundred everyOther
  have four : (journal ofTerminals fiveInHundred everyOther).fresh.length = 4 := rfl
  have unrefused : ∀ e, .error e ∉ (journal ofTerminals fiveInHundred everyOther).draws := by
    have draws : (journal ofTerminals fiveInHundred everyOther).draws =
        everyOther.take 4 := rfl
    rw [draws]
    simp [everyOther]
  have short : (journal ofTerminals fiveInHundred everyOther).fresh.length ≠
      fiveInHundred.numTries := by
    rw [four]
    decide
  exact ⟨neverFails_ofTerminals, d, ok, four, (full unrefused).resolve_right short, total.trans four⟩

end Discovery

end PreconditionMining
