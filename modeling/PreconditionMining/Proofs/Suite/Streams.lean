/-
# Measuring is all or nothing

A stream is there when there is room for it and its solver is built and answers each call
with a sample (`Collaborators.Streams`).  Drawing finds it exactly then
(`drawStream_eq_some_iff`), and what it does to a session is told or done to the builder of
solvers (`drawStream_effect`): no sample is judged meanwhile.  Where there is no room the
task breaks off as soon as a solver is built (`Collaborators.Overflows`).

The samples of both streams are judged one after another (`Context.verdicts`), and the
first verdict that fails is all there is to say then (`split_spec`,
`measureStreams_spec`).  Where all of them succeed, each stream is split by its verdicts
(`StreamSplit.ofVerdicts`), and nothing is lost or doubled by that
(`StreamSplit.samples_ofVerdicts_perm`).

So there are four ways for a measurement to go (`measure_cases`), and
`measure_all_or_nothing` tells them apart by the number of samples, what the solvers answer
and what the test judges.
-/

import PreconditionMining.Suite.Accuracy
import PreconditionMining.Proofs.Suite.Agreement

namespace PreconditionMining

variable {φ σ κ : Type}

/-- What a solver answers to a number of calls in a row. -/
def Solver.answers (solver : Solver σ) : Nat → σ → List (Except SolverError Tree)
  | 0, _ => []
  | n + 1, q => (solver.solve q).answer :: solver.answers n (solver.solve q).state

theorem Solver.length_answers (solver : Solver σ) (n : Nat) (q : σ) :
    (solver.answers n q).length = n := by
  induction n generalizing q with
  | zero => rfl
  | succ n ih => rw [answers, List.length_cons, ih]

namespace Context

/-- The options of the solvers that streams for a test are drawn from: those of the test, but
samples may repeat. -/
def streamOptions (ctx : Context) (t : ObservedTest) : SolverOptions :=
  { ctx.solverOptions t with distinct := false }

/-- What a test says of some samples, judged one after another. -/
def verdicts (ctx : Context) (t : ObservedTest) :
    List Tree → World → List (Except ConditionError Bool)
  | [], _ => []
  | sample :: rest, w =>
    let out := t.classify ctx.register (ctx.input sample) w
    out.verdict :: verdicts ctx t rest out.world

end Context

/-- **A stream is there:** a vector has room for it, its solver is built, and the solver answers as
many calls in a row as there are to be samples, each with one of them. -/
def Collaborators.Streams (c : Collaborators φ σ κ) (ctx : Context) (t : ObservedTest) (count : Nat)
    (formula : Option Formula) (solvers : φ) (samples : List Tree) : Prop :=
  count ≤ streamCapacity ∧
    ∃ q, (c.create ctx.grammar formula (ctx.streamOptions t) solvers).1 = .ok q ∧
      c.solver.answers count q = samples.map .ok

/-- **A stream is too long:** its solver is built, and no vector has room for its samples. -/
def Collaborators.Overflows (c : Collaborators φ σ κ) (ctx : Context) (t : ObservedTest)
    (count : Nat) (formula : Option Formula) (solvers : φ) : Prop :=
  streamCapacity < count ∧
    ∃ q, (c.create ctx.grammar formula (ctx.streamOptions t) solvers).1 = .ok q

theorem Collaborators.Streams.length_eq {c : Collaborators φ σ κ} {ctx : Context} {t : ObservedTest}
    {count : Nat} {formula : Option Formula} {solvers : φ} {samples : List Tree}
    (h : c.Streams ctx t count formula solvers samples) : samples.length = count := by
  obtain ⟨-, q, -, answers⟩ := h
  have same := congrArg List.length answers
  rw [Solver.length_answers, List.length_map] at same
  exact same.symm

/-- Where there is room no stream is too long. -/
theorem Collaborators.not_overflows (c : Collaborators φ σ κ) {ctx : Context} {t : ObservedTest}
    {count : Nat} {formula : Option Formula} {solvers : φ} (room : count ≤ streamCapacity) :
    ¬ c.Overflows ctx t count formula solvers :=
  fun overflows => absurd room (Nat.not_le_of_lt overflows.1)

/-- A stream that is there is not too long. -/
theorem Collaborators.Streams.not_overflows {c : Collaborators φ σ κ} {ctx : Context}
    {t : ObservedTest} {count : Nat} {formula : Option Formula} {solvers : φ} {samples : List Tree}
    (h : c.Streams ctx t count formula solvers samples) :
    ¬ c.Overflows ctx t count formula solvers :=
  c.not_overflows h.1

/-- A solver, once built, gives one stream. -/
theorem Collaborators.Streams.unique {c : Collaborators φ σ κ} {ctx : Context} {t : ObservedTest}
    {count : Nat} {formula : Option Formula} {solvers : φ} {samples samples' : List Tree}
    (h : c.Streams ctx t count formula solvers samples)
    (h' : c.Streams ctx t count formula solvers samples') : samples = samples' := by
  obtain ⟨-, q, built, answers⟩ := h
  obtain ⟨-, q', built', answers'⟩ := h'
  obtain rfl := Except.ok.inj (built.symm.trans built')
  exact (List.map_inj_right fun _ _ same => Except.ok.inj same).1 (answers.symm.trans answers')

namespace StreamSplit

/-- Samples split by their verdicts, each half in the order of the samples. -/
def ofVerdicts (samples : List Tree) (verdicts : List Bool) : StreamSplit where
  passing := ((samples.zip verdicts).filter fun judged => judged.2).map (·.1)
  failing := ((samples.zip verdicts).filter fun judged => !judged.2).map (·.1)

theorem ofVerdicts_cons (sample : Tree) (rest : List Tree) (triggered : Bool)
    (verdicts : List Bool) :
    ofVerdicts (sample :: rest) (triggered :: verdicts) =
      if triggered then
        ⟨sample :: (ofVerdicts rest verdicts).passing, (ofVerdicts rest verdicts).failing⟩
      else ⟨(ofVerdicts rest verdicts).passing, sample :: (ofVerdicts rest verdicts).failing⟩ := by
  cases triggered <;> rfl

/-- All samples of a stream, the passing ones first. -/
def samples (s : StreamSplit) : List Tree := s.passing ++ s.failing

/-- **Each sample is in one half,** where each has its verdict. -/
theorem samples_ofVerdicts_perm {samples : List Tree} {verdicts : List Bool}
    (h : verdicts.length = samples.length) : (ofVerdicts samples verdicts).samples.Perm samples := by
  induction samples generalizing verdicts with
  | nil => exact .refl []
  | cons sample rest ih =>
    obtain - | ⟨triggered, verdicts⟩ := verdicts
    · cases h
    · have parted := (ih (Nat.succ.inj h)).cons sample
      cases triggered with
      | true => exact parted
      | false => exact List.perm_middle.trans parted

theorem length_ofVerdicts {samples : List Tree} {verdicts : List Bool}
    (h : verdicts.length = samples.length) :
    (ofVerdicts samples verdicts).length = samples.length := by
  have parted := (samples_ofVerdicts_perm h).length_eq
  rw [StreamSplit.samples, List.length_append] at parted
  exact parted

end StreamSplit

/-- The first failure among some answers. -/
def firstFailure {ε α : Type} : List (Except ε α) → Option ε
  | [] => none
  | .error e :: _ => some e
  | .ok _ :: rest => firstFailure rest

theorem firstFailure_map_ok {ε α : Type} (values : List α) :
    firstFailure (values.map (Except.ok (ε := ε))) = none := by
  induction values with
  | nil => rfl
  | cons a values ih => exact ih

theorem firstFailure_of_map_ok {ε α : Type} {answers : List (Except ε α)} {values : List α} {e : ε}
    (fails : firstFailure answers = some e) : answers ≠ values.map .ok := by
  rintro rfl
  rw [firstFailure_map_ok] at fails
  cases fails

theorem firstFailure_map_ok_append {ε α : Type} (values : List α) (rest : List (Except ε α)) :
    firstFailure (values.map .ok ++ rest) = firstFailure rest := by
  induction values with
  | nil => rfl
  | cons a values ih => exact ih

namespace Session

variable {ctx : Context} {t : ObservedTest}

/-- What is told adds events. -/
theorem noteAll_effect (s : Session φ κ) (es : List Event) :
    ∃ events, s.noteAll es = { s with events } := by
  induction es generalizing s with
  | nil => exact ⟨s.events, rfl⟩
  | cons e es ih => exact ih (s.note e)

/-- **Drawing finds the samples that the solver answers with,** if it answers each call with one. -/
theorem drawFrom_eq_some_iff (c : Collaborators φ σ κ) {samples : List Tree} :
    ∀ (n drawn : Nat) (q : σ) (s : Session φ κ),
      (drawFrom c n drawn q s).1 = some samples ↔ c.solver.answers n q = samples.map .ok := by
  intro n
  induction n generalizing samples with
  | zero =>
    intro drawn q s
    cases samples <;> simp [drawFrom, Solver.answers]
  | succ n ih =>
    intro drawn q s
    rw [drawFrom, Solver.answers]
    rcases (c.solver.solve q).answer with e | sample
    · cases samples <;> simp
    · have later : ∀ rest, (drawFrom c n (drawn + 1) (c.solver.solve q).state
            (s.noteAll (c.solver.solve q).events)).1 = some rest ↔
          c.solver.answers n (c.solver.solve q).state = rest.map .ok :=
        fun _ => ih (drawn + 1) (c.solver.solve q).state (s.noteAll (c.solver.solve q).events)
      obtain - | ⟨first, rest⟩ := samples
      · simp
      · rw [List.map_cons, List.cons.injEq, Except.ok.injEq, ← later rest, Option.map_eq_some_iff]
        constructor
        · rintro ⟨drawn, found, same⟩
          injection same with head tail
          exact ⟨head, tail ▸ found⟩
        · rintro ⟨rfl, found⟩
          exact ⟨rest, found, rfl⟩

/-- Drawing adds events. -/
theorem drawFrom_effect (c : Collaborators φ σ κ) :
    ∀ (n drawn : Nat) (q : σ) (s : Session φ κ),
      ∃ events, (drawFrom c n drawn q s).2 = { s with events }
  | 0, _, _, s => ⟨s.events, rfl⟩
  | n + 1, drawn, q, s => by
    obtain ⟨told, noted⟩ := noteAll_effect s (c.solver.solve q).events
    rw [drawFrom]
    rcases (c.solver.solve q).answer with e | sample
    · refine ⟨told.push (.evaluationStreamFailed e drawn), ?_⟩
      rw [noted]
      rfl
    · obtain ⟨events, later⟩ := drawFrom_effect c n (drawn + 1) (c.solver.solve q).state
        (s.noteAll (c.solver.solve q).events)
      refine ⟨events, later.trans ?_⟩
      rw [noted]

/-- **A stream is found exactly when it is there.** -/
theorem drawStream_eq_some_iff {c : Collaborators φ σ κ} {count : Nat} {formula : Option Formula}
    {s : Session φ κ} {samples : List Tree} :
    (s.drawStream c ctx count t formula).1 = .ok (some samples) ↔
      c.Streams ctx t count formula s.solvers samples := by
  rw [drawStream, Collaborators.Streams, Context.streamOptions, create]
  rcases c.create ctx.grammar formula { ctx.solverOptions t with distinct := false } s.solvers
    with ⟨e | q, solvers⟩
  · simp
  · by_cases long : streamCapacity < count
    · simp [long, Nat.not_le_of_lt long]
    · simp [long, Nat.le_of_not_lt long, drawFrom_eq_some_iff]

/-- **Drawing a stream breaks off exactly when it is too long.** -/
theorem drawStream_eq_error_iff {c : Collaborators φ σ κ} {count : Nat} {formula : Option Formula}
    {s : Session φ κ} {halt : Halt ConditionError} :
    (s.drawStream c ctx count t formula).1 = .error halt ↔
      halt = .capacityOverflow ∧ c.Overflows ctx t count formula s.solvers := by
  rw [drawStream, Collaborators.Overflows, Context.streamOptions, create]
  rcases c.create ctx.grammar formula { ctx.solverOptions t with distinct := false } s.solvers
    with ⟨e | q, solvers⟩
  · simp
  · by_cases long : streamCapacity < count
    · simp only [if_pos long]
      exact ⟨fun off => ⟨(Except.error.inj off).symm, long, q, rfl⟩, fun off => off.1 ▸ rfl⟩
    · simp [long]

/-- Where there is room, drawing a stream does not break off. -/
theorem drawStream_of_room (c : Collaborators φ σ κ) (ctx : Context) (t : ObservedTest)
    {count : Nat} (room : count ≤ streamCapacity) (formula : Option Formula) (s : Session φ κ) :
    ∃ samples, (s.drawStream c ctx count t formula).1 = .ok samples := by
  rcases drawn : (s.drawStream c ctx count t formula).1 with halt | samples
  · exact absurd (drawStream_eq_error_iff.1 drawn).2 (c.not_overflows room)
  · exact ⟨samples, rfl⟩

/-- The session after the solver of a stream was asked for, with other events. -/
def afterStream (c : Collaborators φ σ κ) (ctx : Context) (t : ObservedTest)
    (formula : Option Formula) (events : Array Event) (s : Session φ κ) : Session φ κ :=
  { s with
    solvers := (c.create ctx.grammar formula (ctx.streamOptions t) s.solvers).2
    events }

/-- **Drawing a stream asks for one solver,** and apart from that it adds events. -/
theorem drawStream_effect (c : Collaborators φ σ κ) (ctx : Context) (count : Nat) (t : ObservedTest)
    (formula : Option Formula) (s : Session φ κ) :
    ∃ events, (s.drawStream c ctx count t formula).2 = s.afterStream c ctx t formula events := by
  unfold drawStream afterStream Context.streamOptions create
  rcases c.create ctx.grammar formula { ctx.solverOptions t with distinct := false } s.solvers
    with ⟨e | q, solvers⟩
  · exact ⟨_, rfl⟩
  · dsimp only
    split
    · exact ⟨s.events, rfl⟩
    · exact drawFrom_effect c count 0 q { s with solvers }

/-- **A stream is too long, or there and found, or missing.** -/
theorem drawStream_spec (c : Collaborators φ σ κ) (ctx : Context) (count : Nat) (t : ObservedTest)
    (formula : Option Formula) (s : Session φ κ) :
    ∃ events,
      (c.Overflows ctx t count formula s.solvers ∧
        s.drawStream c ctx count t formula =
          (.error .capacityOverflow, s.afterStream c ctx t formula events)) ∨
      (∃ samples, c.Streams ctx t count formula s.solvers samples ∧
        s.drawStream c ctx count t formula =
          (.ok (some samples), s.afterStream c ctx t formula events)) ∨
      ¬ c.Overflows ctx t count formula s.solvers ∧
        (¬ ∃ samples, c.Streams ctx t count formula s.solvers samples) ∧
        s.drawStream c ctx count t formula = (.ok none, s.afterStream c ctx t formula events) := by
  obtain ⟨events, effect⟩ := drawStream_effect c ctx count t formula s
  refine ⟨events, ?_⟩
  rcases drawn : (s.drawStream c ctx count t formula).1 with halt | _ | samples
  · obtain ⟨rfl, overflows⟩ := drawStream_eq_error_iff.1 drawn
    exact .inl ⟨overflows, Prod.ext drawn effect⟩
  · have fits : ¬ c.Overflows ctx t count formula s.solvers := fun overflows => by
      rw [drawStream_eq_error_iff.2 ⟨rfl, overflows⟩] at drawn
      cases drawn
    refine .inr (.inr ⟨fits, fun ⟨samples, there⟩ => ?_, Prod.ext drawn effect⟩)
    rw [drawStream_eq_some_iff.2 there] at drawn
    cases drawn
  · exact .inr (.inl ⟨samples, drawStream_eq_some_iff.1 drawn, Prod.ext drawn effect⟩)

/-- **Samples are split by their verdicts, up to the first one that fails.** -/
theorem split_spec (ctx : Context) (t : ObservedTest) :
    ∀ (samples : List Tree) (s : Session φ κ),
      (∃ passed s', split ctx t samples s = (.ok (.ofVerdicts samples passed), s') ∧
        passed.length = samples.length ∧
        ∀ more, ctx.verdicts t (samples ++ more) s.world =
          passed.map .ok ++ ctx.verdicts t more s'.world) ∨
      ∃ e s', split ctx t samples s = (.error e, s') ∧
        ∀ more, firstFailure (ctx.verdicts t (samples ++ more) s.world) = some e
  | [], s => .inl ⟨[], s, rfl, rfl, fun _ => rfl⟩
  | sample :: rest, s => by
    rcases judged : s.classify ctx t sample with ⟨e | triggered, s'⟩
    all_goals
      have verdict : (t.classify ctx.register (ctx.input sample) s.world).verdict = _ :=
        congrArg Prod.fst judged
      have world : (t.classify ctx.register (ctx.input sample) s.world).world = s'.world :=
        congrArg (fun out => out.2.world) judged
      have told : ∀ more, ctx.verdicts t (sample :: rest ++ more) s.world =
          _ :: ctx.verdicts t (rest ++ more) s'.world := fun more => by
        rw [List.cons_append, Context.verdicts, verdict, world]
    · refine .inr ⟨e, s', ?_, fun more => ?_⟩
      · rw [split, judged]
      · rw [told, firstFailure]
    · obtain ⟨passed, s'', halved, each, later⟩ | ⟨e, s'', failed, later⟩ :=
        split_spec ctx t rest s'
      · refine .inl ⟨triggered :: passed, s'', ?_, by simp [each], fun more => ?_⟩
        · rw [split, judged]
          simp only [halved, StreamSplit.ofVerdicts_cons]
        · rw [told, later]
          rfl
      · refine .inr ⟨e, s'', ?_, fun more => ?_⟩
        · rw [split, judged]
          simp only [failed]
        · rw [told, firstFailure, later]

/-- **Both streams are split by their verdicts, up to the first one that fails.** -/
theorem measureStreams_spec (ctx : Context) (t : ObservedTest) (raw constrained : List Tree)
    (s : Session φ κ) :
    (∃ passed passed' s', measureStreams ctx t raw constrained s =
        (.ok ⟨.ofVerdicts raw passed, .ofVerdicts constrained passed'⟩, s') ∧
      passed.length = raw.length ∧ passed'.length = constrained.length ∧
      ctx.verdicts t (raw ++ constrained) s.world = (passed ++ passed').map .ok) ∨
    ∃ e s', measureStreams ctx t raw constrained s = (.error e, s') ∧
      firstFailure (ctx.verdicts t (raw ++ constrained) s.world) = some e := by
  obtain ⟨passed, s', halved, each, told⟩ | ⟨e, s', failed, told⟩ := split_spec ctx t raw s
  · obtain ⟨passed', s'', halved', each', told'⟩ | ⟨e, s'', failed, told'⟩ :=
      split_spec ctx t constrained s'
    · let m : Measurement := ⟨.ofVerdicts raw passed, .ofVerdicts constrained passed'⟩
      refine .inl ⟨passed, passed',
        s''.note (.measured m.raw.precision m.constrained.precision), ?_, each, each', ?_⟩
      · rw [measureStreams]
        simp only [halved, halved', m]
      · have all := told' []
        rw [List.append_nil, Context.verdicts, List.append_nil] at all
        rw [told, all, List.map_append]
    · refine .inr ⟨e, s'', ?_, ?_⟩
      · rw [measureStreams]
        simp only [halved, failed]
      · have last := told' []
        rw [List.append_nil] at last
        rw [told, firstFailure_map_ok_append, last]
  · refine .inr ⟨e, s', ?_, told constrained⟩
    rw [measureStreams]
    simp only [failed]

variable (c : Collaborators φ σ κ) (ctx : Context) (count : Nat) (t : ObservedTest)
  (precondition : Formula) (s : Session φ κ)

/-- **Four ways for a measurement to go:** the streams are too long or the raw stream is missing, and
only one solver was asked for; the constrained stream is missing; or both streams are there and are
judged. -/
theorem measure_cases :
    let out := s.measure c ctx count t precondition
    let formula := some (Formula.constrain ctx.formula precondition)
    let first := (c.create ctx.grammar ctx.formula (ctx.streamOptions t) s.solvers).2
    (c.Overflows ctx t count ctx.formula s.solvers ∧
      ∃ events, out = (.error .capacityOverflow, s.afterStream c ctx t ctx.formula events)) ∨
    (¬ c.Overflows ctx t count ctx.formula s.solvers ∧
      (¬ ∃ raw, c.Streams ctx t count ctx.formula s.solvers raw) ∧
      ∃ events, out = (.ok none, s.afterStream c ctx t ctx.formula events)) ∨
    ∃ raw, c.Streams ctx t count ctx.formula s.solvers raw ∧
      (¬ (∃ constrained, c.Streams ctx t count formula first constrained) ∧
          (∃ told events, out = (.ok none,
            (s.afterStream c ctx t ctx.formula told).afterStream c ctx t formula events)) ∨
        ∃ constrained, c.Streams ctx t count formula first constrained ∧
          ((∃ passed passed', out.1 = .ok (some ⟨.ofVerdicts raw passed,
                .ofVerdicts constrained passed'⟩) ∧
              passed.length = raw.length ∧ passed'.length = constrained.length ∧
              ctx.verdicts t (raw ++ constrained) s.world = (passed ++ passed').map .ok) ∨
            ∃ e, out.1 = .error (.failed e) ∧
              firstFailure (ctx.verdicts t (raw ++ constrained) s.world) = some e)) := by
  intro out formula first
  have begun : out = s.measure c ctx count t precondition := rfl
  rw [measure] at begun
  obtain ⟨told, ⟨overflows, drawn⟩ | ⟨raw, raws, drawn⟩ | ⟨fits, missing, drawn⟩⟩ :=
    drawStream_spec c ctx count t ctx.formula (s.note (.measuring t.name precondition.text))
  all_goals rw [drawn] at begun
  · exact .inl ⟨overflows, _, begun⟩
  · refine .inr (.inr ⟨raw, raws, ?_⟩)
    obtain ⟨events, ⟨overflows, -⟩ | ⟨constrained, constraineds, drawn'⟩ |
        ⟨-, missing, drawn'⟩⟩ :=
      drawStream_spec c ctx count t formula
        ((s.note (.measuring t.name precondition.text)).afterStream c ctx t ctx.formula told)
    · exact absurd overflows (c.not_overflows raws.1)
    all_goals simp only [formula, drawn'] at begun
    · refine .inr ⟨constrained, constraineds, ?_⟩
      obtain ⟨passed, passed', s', judged, each, each', verdicts⟩ | ⟨e, s', failed, verdicts⟩ :=
        measureStreams_spec ctx t raw constrained
          (((s.note (.measuring t.name precondition.text)).afterStream c ctx t ctx.formula
            told).afterStream c ctx t formula events)
      · simp only [formula, judged] at begun
        exact .inl ⟨passed, passed', congrArg Prod.fst begun, each, each', verdicts⟩
      · simp only [formula, failed] at begun
        exact .inr ⟨e, congrArg Prod.fst begun, verdicts⟩
    · exact .inl ⟨missing, told, _, begun⟩
  · exact .inr (.inl ⟨fits, missing, _, begun⟩)

/-- **A measurement breaks off exactly where the streams are too long.** -/
theorem measure_eq_overflow_iff :
    (s.measure c ctx count t precondition).1 = .error .capacityOverflow ↔
      c.Overflows ctx t count ctx.formula s.solvers := by
  obtain ⟨overflows, _, off⟩ | ⟨fits, _, _, gone⟩ | ⟨raw, there, ⟨_, _, _, gone⟩ |
      ⟨constrained, _, ⟨_, _, measured, _⟩ | ⟨e, failed, _⟩⟩⟩ :=
    measure_cases c ctx count t precondition s
  · exact ⟨fun _ => overflows, fun _ => congrArg Prod.fst off⟩
  · rw [gone]
    exact ⟨nofun, fun overflows => absurd overflows fits⟩
  · rw [gone]
    exact ⟨nofun, fun overflows => absurd overflows there.not_overflows⟩
  · rw [measured]
    exact ⟨nofun, fun overflows => absurd overflows there.not_overflows⟩
  · rw [failed]
    exact ⟨nofun, fun overflows => absurd overflows there.not_overflows⟩

/-- **Nothing is measured exactly where a stream is missing** and none is too long. -/
theorem measure_eq_none_iff :
    (s.measure c ctx count t precondition).1 = .ok none ↔
      ¬ c.Overflows ctx t count ctx.formula s.solvers ∧
        ((¬ ∃ raw, c.Streams ctx t count ctx.formula s.solvers raw) ∨
          ¬ ∃ constrained, c.Streams ctx t count (some (.constrain ctx.formula precondition))
            (c.create ctx.grammar ctx.formula (ctx.streamOptions t) s.solvers).2 constrained) := by
  obtain ⟨overflows, _, off⟩ | ⟨fits, missing, _, gone⟩ | ⟨raw, there, ⟨missing, _, _, gone⟩ |
      ⟨constrained, there', answered⟩⟩ := measure_cases c ctx count t precondition s
  · rw [off]
    exact ⟨nofun, fun ⟨fits, _⟩ => absurd overflows fits⟩
  · exact ⟨fun _ => ⟨fits, .inl missing⟩, fun _ => congrArg Prod.fst gone⟩
  · exact ⟨fun _ => ⟨there.not_overflows, .inr missing⟩, fun _ => congrArg Prod.fst gone⟩
  · refine ⟨fun gone => ?_, fun ⟨_, missing⟩ => ?_⟩
    · obtain ⟨_, _, measured, -⟩ | ⟨e, failed, -⟩ := answered
      · rw [measured] at gone
        cases gone
      · rw [failed] at gone
        cases gone
    · rcases missing with missing | missing
      · exact absurd ⟨raw, there⟩ missing
      · exact absurd ⟨constrained, there'⟩ missing

/-- **A measurement is what the verdicts about two whole streams come to.** -/
theorem measure_eq_some_iff (m : Measurement) :
    (s.measure c ctx count t precondition).1 = .ok (some m) ↔
      ∃ raw constrained passed passed',
        c.Streams ctx t count ctx.formula s.solvers raw ∧
        c.Streams ctx t count (some (.constrain ctx.formula precondition))
          (c.create ctx.grammar ctx.formula (ctx.streamOptions t) s.solvers).2 constrained ∧
        ctx.verdicts t (raw ++ constrained) s.world = (passed ++ passed').map .ok ∧
        passed.length = count ∧ passed'.length = count ∧
        m = ⟨.ofVerdicts raw passed, .ofVerdicts constrained passed'⟩ := by
  obtain ⟨overflows, _, off⟩ | ⟨_, missing, _, gone⟩ | ⟨raw, there, ⟨missing, _, _, gone⟩ |
      ⟨constrained, there', ⟨passed, passed', measured, each, each', verdicts⟩ |
        ⟨e, failed, fails⟩⟩⟩ := measure_cases c ctx count t precondition s
  · rw [off]
    exact ⟨nofun, fun ⟨_, _, _, _, there, _⟩ => absurd overflows there.not_overflows⟩
  · rw [gone]
    exact ⟨nofun, fun ⟨raw, _, _, _, there, _⟩ => absurd ⟨raw, there⟩ missing⟩
  · rw [gone]
    exact ⟨nofun, fun ⟨_, constrained, _, _, _, there, _⟩ => absurd ⟨constrained, there⟩ missing⟩
  · rw [measured]
    constructor
    · intro same
      injection same with same
      injection same with same
      exact ⟨raw, constrained, passed, passed', there, there', verdicts,
        each.trans there.length_eq, each'.trans there'.length_eq, same.symm⟩
    · rintro ⟨raw', constrained', known, known', here, here', verdicts', length, -, rfl⟩
      obtain rfl := there.unique here
      obtain rfl := there'.unique here'
      have joined : passed ++ passed' = known ++ known' :=
        (List.map_inj_right fun _ _ same => Except.ok.inj same).1 (verdicts.symm.trans verdicts')
      obtain ⟨rfl, rfl⟩ := List.append_inj joined (each.trans (there.length_eq.trans length.symm))
      rfl
  · rw [failed]
    refine ⟨nofun, fun ⟨raw', constrained', _, _, here, here', verdicts, _⟩ => ?_⟩
    obtain rfl := there.unique here
    obtain rfl := there'.unique here'
    exact absurd verdicts (firstFailure_of_map_ok fails)

/-- **A measurement fails with the first verdict that fails.** -/
theorem measure_eq_failed_iff (e : ConditionError) :
    (s.measure c ctx count t precondition).1 = .error (.failed e) ↔
      ∃ raw constrained, c.Streams ctx t count ctx.formula s.solvers raw ∧
        c.Streams ctx t count (some (.constrain ctx.formula precondition))
          (c.create ctx.grammar ctx.formula (ctx.streamOptions t) s.solvers).2 constrained ∧
        firstFailure (ctx.verdicts t (raw ++ constrained) s.world) = some e := by
  obtain ⟨overflows, _, off⟩ | ⟨_, missing, _, gone⟩ | ⟨raw, there, ⟨missing, _, _, gone⟩ |
      ⟨constrained, there', ⟨passed, passed', measured, -, -, verdicts⟩ |
        ⟨e', failed, fails⟩⟩⟩ := measure_cases c ctx count t precondition s
  · rw [off]
    exact ⟨nofun, fun ⟨_, _, there, _⟩ => absurd overflows there.not_overflows⟩
  · rw [gone]
    exact ⟨nofun, fun ⟨raw, _, there, _⟩ => absurd ⟨raw, there⟩ missing⟩
  · rw [gone]
    exact ⟨nofun, fun ⟨_, constrained, _, there, _⟩ => absurd ⟨constrained, there⟩ missing⟩
  · rw [measured]
    refine ⟨nofun, fun ⟨raw', constrained', here, here', fails⟩ => ?_⟩
    obtain rfl := there.unique here
    obtain rfl := there'.unique here'
    exact absurd verdicts (firstFailure_of_map_ok fails)
  · rw [failed]
    constructor
    · intro same
      injection same with same
      injection same with same
      exact ⟨raw, constrained, there, there', same ▸ fails⟩
    · rintro ⟨raw', constrained', here, here', fails'⟩
      obtain rfl := there.unique here
      obtain rfl := there'.unique here'
      rw [fails] at fails'
      rw [Option.some.inj fails']

/-- **A pair that is not measured was not judged,** whether a stream is missing or too long: no body
of a test, no condition and no other test has a say in what comes of it. -/
theorem measure_unjudged {c : Collaborators φ σ κ} {ctx : Context} {count : Nat} {t : ObservedTest}
    {precondition : Formula} {s : Session φ κ}
    (unmeasured : (s.measure c ctx count t precondition).1 = .ok none ∨
      (s.measure c ctx count t precondition).1 = .error .capacityOverflow)
    (register : List ObservedTest) (adapter : Option (Tree → String)) (condition : Condition)
    (body : String → Script) :
    s.measure c { ctx with register, adapter } count { t with condition, body } precondition =
      s.measure c ctx count t precondition := by
  have same : ∀ (f : Option Formula) (z : Session φ κ),
      z.drawStream c { ctx with register, adapter } count { t with condition, body } f =
        z.drawStream c ctx count t f := fun _ _ => rfl
  rw [measure] at unmeasured ⊢
  rw [measure]
  simp only [same]
  rcases first : (s.note (.measuring t.name precondition.text)).drawStream c ctx count t ctx.formula
    with ⟨halt | _ | raw, s'⟩ <;> simp only [first] at unmeasured ⊢
  rcases second : s'.drawStream c ctx count t (some (.constrain ctx.formula precondition))
    with ⟨halt | _ | constrained, s''⟩ <;> simp only [second] at unmeasured ⊢
  -- with both streams there, the outcome would be a measurement or a failure
  rcases judged : measureStreams ctx t raw constrained s'' with ⟨e | m, z⟩
  all_goals
    rw [judged] at unmeasured
    rcases unmeasured with unmeasured | unmeasured <;> cases unmeasured

/-- **Without a raw stream,** one solver is asked for, and all else is told. -/
theorem measure_of_missing {c : Collaborators φ σ κ} {ctx : Context} {count : Nat}
    {t : ObservedTest} (precondition : Formula) {s : Session φ κ}
    (missing : ¬ ∃ raw, c.Streams ctx t count ctx.formula s.solvers raw) :
    ∃ events, (s.measure c ctx count t precondition).2 =
      s.afterStream c ctx t ctx.formula events := by
  obtain ⟨-, events, off⟩ | ⟨-, -, events, gone⟩ | ⟨raw, there, -⟩ :=
    measure_cases c ctx count t precondition s
  · exact ⟨events, congrArg Prod.snd off⟩
  · exact ⟨events, congrArg Prod.snd gone⟩
  · exact absurd ⟨raw, there⟩ missing

/-- **A measurement that breaks off has drawn no sample:** it goes the same way with any other
solver in the place of the one that was built. -/
theorem measure_of_overflow {c : Collaborators φ σ κ} {ctx : Context} {count : Nat}
    {t : ObservedTest} (precondition : Formula) {s : Session φ κ}
    (overflows : c.Overflows ctx t count ctx.formula s.solvers) (solver : Solver σ) :
    s.measure { c with solver } ctx count t precondition = s.measure c ctx count t precondition := by
  obtain ⟨long, q, built⟩ := overflows
  let begun := s.note (.measuring t.name precondition.text)
  let after : Session φ κ := { begun with
    solvers := (c.create ctx.grammar ctx.formula (ctx.streamOptions t) s.solvers).2 }
  have drawn : ∀ solver : Solver σ, begun.drawStream { c with solver } ctx count t ctx.formula =
      (.error .capacityOverflow, after) := by
    intro solver
    have created : begun.create { c with solver } ctx ctx.formula
        { ctx.solverOptions t with distinct := false } = (.ok q, after) := Prod.ext built rfl
    rw [drawStream, created]
    exact if_pos long
  have off : ∀ solver : Solver σ, s.measure { c with solver } ctx count t precondition =
      (.error .capacityOverflow, after) := by
    intro solver
    have off := drawn solver
    simp only [begun] at off
    rw [measure, off]
  exact (off solver).trans (off c.solver).symm

/-- The same session, with a record of the solvers that were asked for. -/
def withAsked (asked : List (Option Formula × SolverOptions)) (s : Session φ κ) :
    Session (φ × List (Option Formula × SolverOptions)) κ :=
  ⟨s.world, (s.solvers, asked), s.learner, s.events, s.deeds⟩

/-- **Measuring is all or nothing.**  A precondition is measured when and only when both streams are
there and no verdict about their samples fails.  Then each stream is the whole of its samples, as
many as were asked for, split by their verdicts.  The first verdict that fails is the failure of the
measurement.  Where a stream is missing, nothing is measured, unless it is too long for a vector:
then the measurement breaks off as soon as the solver is built, before it is asked for a sample.
Either way nothing is judged, and no probe and no body had a part in it.  And where the raw stream
is missing, no other solver was asked for. -/
theorem measure_all_or_nothing (c : Collaborators φ σ κ) (ctx : Context) (count : Nat)
    (t : ObservedTest) (precondition : Formula) (s : Session φ κ) :
    let out := s.measure c ctx count t precondition
    let first := (c.create ctx.grammar ctx.formula (ctx.streamOptions t) s.solvers).2
    let raws := c.Streams ctx t count ctx.formula s.solvers
    let constraineds :=
      c.Streams ctx t count (some (.constrain ctx.formula precondition)) first
    let overflows := c.Overflows ctx t count ctx.formula s.solvers
    (∀ m, out.1 = .ok (some m) ↔ ∃ raw constrained passed passed',
      raws raw ∧ constraineds constrained ∧
      ctx.verdicts t (raw ++ constrained) s.world = (passed ++ passed').map .ok ∧
      passed.length = count ∧ passed'.length = count ∧
      m = ⟨.ofVerdicts raw passed, .ofVerdicts constrained passed'⟩) ∧
    (∀ m, out.1 = .ok (some m) → m.raw.length = count ∧ m.constrained.length = count) ∧
    (∀ e, out.1 = .error (.failed e) ↔ ∃ raw constrained, raws raw ∧ constraineds constrained ∧
      firstFailure (ctx.verdicts t (raw ++ constrained) s.world) = some e) ∧
    (out.1 = .ok none ↔
      ¬ overflows ∧ ((¬ ∃ raw, raws raw) ∨ ¬ ∃ constrained, constraineds constrained)) ∧
    (out.1 = .error .capacityOverflow ↔ overflows) ∧
    (out.1 = .ok none ∨ out.1 = .error .capacityOverflow →
      out.2.world = s.world ∧ out.2.deeds = s.deeds ∧
      ∀ register adapter condition body, s.measure c { ctx with register, adapter } count
        { t with condition, body } precondition = out) ∧
    ((¬ ∃ raw, raws raw) → out.2.solvers = first ∧
      ∀ asked, ((s.withAsked asked).measure c.recording ctx count t precondition).2.solvers.2 =
        asked ++ [(ctx.formula, ctx.streamOptions t)]) ∧
    (overflows → ∀ solver, s.measure { c with solver } ctx count t precondition = out) := by
  refine ⟨measure_eq_some_iff c ctx count t precondition s, fun m measured => ?_,
    measure_eq_failed_iff c ctx count t precondition s,
    measure_eq_none_iff c ctx count t precondition s,
    measure_eq_overflow_iff c ctx count t precondition s, fun unmeasured => ?_, fun missing => ?_,
    measure_of_overflow precondition⟩
  · obtain ⟨raw, constrained, passed, passed', there, there', -, each, each', rfl⟩ :=
      (measure_eq_some_iff c ctx count t precondition s m).1 measured
    constructor
    · rw [StreamSplit.length_ofVerdicts (each.trans there.length_eq.symm), there.length_eq]
    · rw [StreamSplit.length_ofVerdicts (each'.trans there'.length_eq.symm), there'.length_eq]
  · have unread := measure_unjudged unmeasured
    obtain ⟨-, events, off⟩ | ⟨-, -, events, gone⟩ | ⟨raw, there, ⟨-, told, events, gone⟩ |
      ⟨constrained, there', ⟨_, _, measured, -⟩ | ⟨e, failed, -⟩⟩⟩ :=
        measure_cases c ctx count t precondition s
    · rw [off] at unread ⊢
      exact ⟨rfl, rfl, unread⟩
    · rw [gone] at unread ⊢
      exact ⟨rfl, rfl, unread⟩
    · rw [gone] at unread ⊢
      exact ⟨rfl, rfl, unread⟩
    · rw [measured] at unmeasured
      rcases unmeasured with unmeasured | unmeasured <;> cases unmeasured
    · rw [failed] at unmeasured
      rcases unmeasured with unmeasured | unmeasured <;> cases unmeasured
  · obtain ⟨events, gone⟩ := measure_of_missing precondition missing
    refine ⟨congrArg (fun z => z.solvers) gone, fun asked => ?_⟩
    have missing' : ¬ ∃ raw, c.recording.Streams ctx t count ctx.formula (s.solvers, asked) raw :=
      missing
    obtain ⟨events, gone⟩ :=
      measure_of_missing precondition (s := s.withAsked asked) missing'
    exact congrArg (fun z => z.solvers.2) gone

/-- Two samples of the letters a and b are measured, and three cannot be drawn from a solver that
has two. -/
theorem measure_all_or_nothing_letters :
    (letterSession.measure (letterSource checkingScript.learner) letterContext 2 isLetterA
      (.all [])).1 = .ok (some ⟨⟨[.terminal "a"], [.terminal "b"]⟩,
        ⟨[.terminal "a"], [.terminal "b"]⟩⟩) ∧
    (letterSession.measure (letterSource checkingScript.learner) letterContext 3 isLetterA
      (.all [])).1 = .ok none := by
  obtain ⟨some_iff, -⟩ := measure_all_or_nothing (letterSource checkingScript.learner)
    letterContext 2 isLetterA (.all []) letterSession
  obtain ⟨-, -, -, none_iff, -⟩ := measure_all_or_nothing (letterSource checkingScript.learner)
    letterContext 3 isLetterA (.all []) letterSession
  constructor
  · have room : 2 ≤ streamCapacity := by decide
    exact (some_iff _).2 ⟨[.terminal "a", .terminal "b"], [.terminal "a", .terminal "b"],
      [true, false], [true, false], ⟨room, _, rfl, rfl⟩, ⟨room, _, rfl, rfl⟩, rfl, rfl, rfl, rfl⟩
  · refine none_iff.2 ⟨(letterSource checkingScript.learner).not_overflows (by decide), .inl ?_⟩
    rintro ⟨raw, -, q, built, answers⟩
    cases built
    exact firstFailure_of_map_ok rfl answers

/-- A solver with two samples does not answer 2⁶⁴ - 1 calls with samples, and yet the pair does not
stay unmeasured: the measurement breaks off. -/
theorem measure_breaks_off :
    (∃ q, ((letterSource checkingScript.learner).create letterContext.grammar letterContext.formula
        (letterContext.streamOptions isLetterA) letterSession.solvers).1 = .ok q ∧
      ¬ ∃ samples : List Tree, (letterSource checkingScript.learner).solver.answers
        18446744073709551615 q = samples.map .ok) ∧
    (letterSession.measure (letterSource checkingScript.learner) letterContext
      18446744073709551615 isLetterA (.all [])).1 = .error .capacityOverflow := by
  have built : ((letterSource checkingScript.learner).create letterContext.grammar
      letterContext.formula (letterContext.streamOptions isLetterA) letterSession.solvers).1 =
        .ok _ := rfl
  refine ⟨⟨_, built, fun ⟨samples, answers⟩ => ?_⟩, ?_⟩
  · exact firstFailure_of_map_ok rfl answers
  · exact (measure_eq_overflow_iff _ _ _ _ _ _).2 ⟨by decide, _, built⟩

end Session

end PreconditionMining
