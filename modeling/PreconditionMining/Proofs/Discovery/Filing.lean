/-
# No sample is lost

Each sample that the solver gives is judged once and filed by its verdict, in
the order in which it came, whichever phase it came in and however the phase
ended.  The notion behind it is `Filing`: a part of a journal leads from pools to
a result.  It holds of one sample, and it goes along with concatenation, so each
loop keeps it, and with the loops the whole discovery: `Course.filing`.

A failure of the judge is the last thing that happens, and the discovery fails
with it: `run_files_each_sample`.
-/

import PreconditionMining.Proofs.Discovery.Course

namespace PreconditionMining

namespace Discovery

/-- **A part of a journal leads from pools to a result:** each sample given in it is judged once,
in order; where the result is pools, no judgement failed and they are the pools before with the
samples filed in the part; and where it is a failure, that failure is the last entry and the
first of its kind. -/
structure Filing (pools : Pools) (part : Journal) (result : Except ConditionError Pools) :
    Prop where
  once : part.verdicts.map Prod.fst = part.given
  files : ∀ final, result = .ok final → part.NoMisuse ∧ final = pools ++ part.filed
  fails : ∀ e, result = .error e →
    ∃ (earlier : Journal) (sample : Tree),
      part = earlier ++ [.judged sample (.error e)] ∧ earlier.NoMisuse

namespace Filing

variable {pools : Pools} {result : Except ConditionError Pools}

theorem noMisuse_of_verdict? {entry : Entry} (fetched : entry.verdict? = none) :
    Journal.NoMisuse [entry] := by
  intro sample e mem
  obtain rfl := List.mem_singleton.1 mem
  cases fetched

theorem nil : Filing pools [] (.ok pools) where
  once := rfl
  files final ok := by
    obtain rfl := Except.ok.inj ok
    exact ⟨Journal.noMisuse_nil, (Pools.append_empty pools).symm⟩
  fails e failed := by cases failed

/-- A call that gives nothing files nothing. -/
theorem refused {entry : Entry} (nothing : entry.given? = none) (fetched : entry.verdict? = none) :
    Filing pools [entry] (.ok pools) where
  once := by
    rw [Journal.verdicts, Journal.given, List.filterMap_cons_none fetched,
      List.filterMap_cons_none nothing]
    rfl
  files final ok := by
    obtain rfl := Except.ok.inj ok
    have nothing' : Journal.filed [entry] = .empty := by
      rw [Journal.filed, Journal.verdicts, List.filterMap_cons_none fetched]
      rfl
    exact ⟨noMisuse_of_verdict? fetched, by rw [nothing', Pools.append_empty]⟩
  fails e failed := by cases failed

/-- A sample that is given and judged is filed. -/
theorem filed {entry : Entry} {sample : Tree} (gives : entry.given? = some sample)
    (fetched : entry.verdict? = none) (triggered : Bool) :
    Filing pools [entry, .judged sample (.ok triggered)] (.ok (pools.push sample triggered)) where
  once := by
    rw [Journal.verdicts, Journal.given, List.filterMap_cons_none fetched,
      List.filterMap_cons_some gives]
    rfl
  files final ok := by
    obtain rfl := Except.ok.inj ok
    refine ⟨?_, (Journal.append_filed_judged pools fetched sample triggered).symm⟩
    refine Journal.noMisuse_append (j := [entry]).2 ⟨noMisuse_of_verdict? fetched, ?_⟩
    intro t e mem
    cases List.mem_singleton.1 mem
  fails e failed := by cases failed

/-- A failure of the judge ends the journal. -/
theorem misjudged {entry : Entry} {sample : Tree} (gives : entry.given? = some sample)
    (fetched : entry.verdict? = none) (e : ConditionError) :
    Filing pools [entry, .judged sample (.error e)] (.error e) where
  once := by
    rw [Journal.verdicts, Journal.given, List.filterMap_cons_none fetched,
      List.filterMap_cons_some gives]
    rfl
  files final ok := by cases ok
  fails e' failed := by
    obtain rfl := Except.error.inj failed
    exact ⟨[entry], sample, rfl, noMisuse_of_verdict? fetched⟩

/-- **Parts that lead on from each other** lead on together. -/
theorem append {front later : Journal} {mid : Pools} (first : Filing pools front (.ok mid))
    (second : Filing mid later result) : Filing pools (front ++ later) result where
  once := by simp [first.once, second.once]
  files final ok := by
    obtain ⟨smooth, rfl⟩ := first.files mid rfl
    obtain ⟨smooth', rfl⟩ := second.files final ok
    exact ⟨Journal.noMisuse_append.2 ⟨smooth, smooth'⟩, by
      rw [Journal.filed_append, Pools.append_assoc]⟩
  fails e failed := by
    obtain ⟨earlier, sample, rfl, smooth'⟩ := second.fails e failed
    exact ⟨front ++ earlier, sample, by rw [List.append_assoc],
      Journal.noMisuse_append.2 ⟨(first.files mid rfl).1, smooth'⟩⟩

/-- What is filed from scratch can be filed behind other samples. -/
theorem behind {part : Journal} (h : Filing .empty part result) (pools : Pools) :
    Filing pools part (result.map (pools ++ ·)) where
  once := h.once
  files final ok := by
    cases result with
    | error e => cases ok
    | ok found =>
      obtain rfl := Except.ok.inj ok
      obtain ⟨smooth, rfl⟩ := h.files found rfl
      exact ⟨smooth, by rw [Pools.empty_append]⟩
  fails e failed := by
    cases result with
    | error e' =>
      obtain rfl := Except.error.inj failed
      exact h.fails e' rfl
    | ok found => cases failed

end Filing

theorem Exploring.filing {quota tries : Nat} {pools : Pools} {part : Journal}
    {result : Except ConditionError (Pools × Option SolverError)}
    (h : Exploring quota tries pools part result) : Filing pools part (result.map Prod.fst) := by
  induction h with
  | spent => exact .nil
  | filled full => exact .nil
  | refused short => exact .refused rfl rfl
  | misjudged short => exact .misjudged rfl rfl _
  | filed short _ ih => exact (Filing.filed rfl rfl _).append ih

theorem Sweeping.filing {samples : List Tree} {mutants : Pools} {part : Journal}
    {result : Except ConditionError (Pools × Option SolverError)}
    (h : Sweeping samples mutants part result) : Filing mutants part (result.map Prod.fst) := by
  induction h with
  | done => exact .nil
  | refused => exact .refused rfl rfl
  | misjudged => exact .misjudged rfl rfl _
  | filed _ ih => exact (Filing.filed rfl rfl _).append ih

theorem Mutating.filing {target tries : Nat} {pools : Pools} {ws : List Sweep}
    {result : Except ConditionError Swept} (h : Mutating target tries pools ws result) :
    Filing pools (callsOf ws) (result.map Swept.pools) := by
  induction h with
  | spent => exact .nil
  | reached enough => exact .nil
  | seedless short none => exact .nil
  | misjudged short seeds swept =>
    rw [callsOf_cons, callsOf_nil, List.append_nil]
    exact swept.filing.behind _
  | interrupted short seeds swept =>
    rw [callsOf_cons, callsOf_nil, List.append_nil]
    exact swept.filing.behind _
  | @swept _ _ _ _ _ result short seeds swept _ ih =>
    -- the sweep files from scratch, and its mutants go behind what was pooled before
    have whole := (swept.filing.behind _).append ih
    cases result <;> exact whole

/-- **A discovery files each sample that the solver gave.** -/
theorem Course.filing {settings : SuiteSettings} {exploration : Journal} {ws : List Sweep}
    {result : Except ConditionError Discovery} (h : Course settings exploration ws result) :
    Filing .empty (exploration ++ callsOf ws) (result.map Discovery.pools) := by
  cases h with
  | misjudged explored =>
    rw [callsOf_nil, List.append_nil]
    exact explored.filing
  | refused explored final =>
    rw [callsOf_nil, List.append_nil]
    exact explored.filing
  | @mutated _ _ _ result explored mild swept =>
    have whole := explored.filing.append swept.filing
    cases result <;> exact whole

variable {σ : Type}

/-- **A discovery with a journal** comes to the same result and state as one without. -/
theorem run_recording (sampler : Sampler σ) (settings : SuiteSettings) (s : σ) :
    run sampler.recording settings (s, []) =
      ((run sampler settings s).1, (run sampler settings s).2, journal sampler settings s) := by
  obtain ⟨part, same, -⟩ := run_recorded sampler settings s []
  rw [journal, same]

/-- **Each discovery has a course,** which its journal tells, and its journal is true. -/
theorem exists_course (sampler : Sampler σ) (settings : SuiteSettings) (s : σ) :
    ∃ exploration ws, journal sampler settings s = exploration ++ callsOf ws ∧
      (∀ entry ∈ journal sampler settings s, entry.Genuine sampler) ∧
        Course settings exploration ws (run sampler settings s).1 := by
  obtain ⟨part, same, genuine, exploration, ws, rfl, course⟩ :=
    run_recorded sampler settings s []
  have whole : journal sampler settings s = exploration ++ callsOf ws := by
    rw [journal, same, List.nil_append]
  exact ⟨exploration, ws, whole, whole ▸ genuine, course⟩

/-- A judge that never fails lets the discovery succeed. -/
theorem exists_ok_course {sampler : Sampler σ} (never : sampler.NeverFails)
    (settings : SuiteSettings) (s : σ) :
    ∃ d exploration ws, (run sampler settings s).1 = .ok d ∧
      journal sampler settings s = exploration ++ callsOf ws ∧
        Course settings exploration ws (.ok d) := by
  obtain ⟨exploration, ws, whole, genuine, course⟩ := exists_course sampler settings s
  cases out : (run sampler settings s).1 with
  | ok d => exact ⟨d, exploration, ws, rfl, whole, out ▸ course⟩
  | error e =>
    rw [out] at course
    obtain ⟨earlier, sample, ends, -⟩ := course.filing.fails e rfl
    rw [← whole] at ends
    exact absurd (ends ▸ List.mem_append_right _ List.mem_cons_self)
      (noMisuse_of_genuine never genuine sample e)

/-- **Each sample that the solver gives is judged once, in order, and filed by its verdict,** with
any sampler and any settings, and however the phases end.  The journal is that of the discovery as
it goes without one.  A judge that never fails lets the discovery succeed; then the pools are those
that its journal tells of.  A failure of the judge is the last call that is made, and the discovery
fails with it. -/
theorem run_files_each_sample (sampler : Sampler σ) (settings : SuiteSettings) (s : σ) :
    run sampler.recording settings (s, []) =
      ((run sampler settings s).1, (run sampler settings s).2, journal sampler settings s) ∧
    (journal sampler settings s).verdicts.map Prod.fst = (journal sampler settings s).given ∧
    (sampler.NeverFails → ∃ d, (run sampler settings s).1 = .ok d) ∧
    (∀ d, (run sampler settings s).1 = .ok d → d.pools = (journal sampler settings s).filed) ∧
    ∀ sample e, .judged sample (.error e) ∈ journal sampler settings s →
      (run sampler settings s).1 = .error e ∧
        ∃ earlier, journal sampler settings s = earlier ++ [.judged sample (.error e)] := by
  obtain ⟨exploration, ws, whole, -, course⟩ := exists_course sampler settings s
  have filing := course.filing
  rw [← whole] at filing
  refine ⟨run_recording sampler settings s, filing.once, fun never => ?_, fun d ok => ?_,
    fun sample e mem => ?_⟩
  · obtain ⟨d, -, -, ok, -⟩ := exists_ok_course never settings s
    exact ⟨d, ok⟩
  · rw [(filing.files d.pools (by rw [ok]; rfl)).2, Pools.empty_append]
  · cases out : (run sampler settings s).1 with
    | ok d => exact absurd mem ((filing.files d.pools (by rw [out]; rfl)).1 sample e)
    | error e' =>
      obtain ⟨earlier, sample', ends, smooth⟩ := filing.fails e' (by rw [out]; rfl)
      rw [ends] at mem
      rcases List.mem_append.1 mem with before | last
      · exact absurd before (smooth sample e)
      · cases List.mem_singleton.1 last
        exact ⟨rfl, earlier, ends⟩

/-- Settings for three positive samples in two tries. -/
def threeInTwo : SuiteSettings := { targetNumSamples := 3, numTries := 2 }

/-- A sampler that takes terminals for positive. -/
def ofTerminals : Sampler (List (Except SolverError Tree)) :=
  .scripted fun sample => match sample with
    | .terminal _ => true
    | .node _ _ => false

/-- Answers that let the second of two sweeps be cut short. -/
def cutShort : List (Except SolverError Tree) :=
  [.ok (.terminal "a"), .ok (.node "<b>" []), .ok (.terminal "c"), .ok (.node "<d>" []),
    .ok (.terminal "e"), .error (.timeout 5)]

theorem neverFails_ofTerminals : ofTerminals.NeverFails := Sampler.neverFails_scripted _

/-- What a discovery with these answers comes to. -/
def cutShortFound : Discovery where
  pools := ⟨[.terminal "a", .terminal "c", .terminal "e"], [.node "<b>" [], .node "<d>" []]⟩
  exploration := ⟨1, 1⟩
  rounds := [⟨2, 2⟩, ⟨3, 2⟩]
  stop := .solverTimeout

theorem run_cutShort : (run ofTerminals threeInTwo cutShort).1 = .ok cutShortFound := rfl

/-- The mutant of a sweep that is cut short is filed too. -/
theorem run_files_each_sample_cutShort :
    ofTerminals.NeverFails ∧ (∃ d, (run ofTerminals threeInTwo cutShort).1 = .ok d) ∧
      cutShortFound.pools = (journal ofTerminals threeInTwo cutShort).filed := by
  obtain ⟨-, -, succeeds, files, -⟩ := run_files_each_sample ofTerminals threeInTwo cutShort
  have never := neverFails_ofTerminals
  exact ⟨never, succeeds never, files cutShortFound run_cutShort⟩

end Discovery

end PreconditionMining
