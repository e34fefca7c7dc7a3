/-
# What measuring needs

Measuring a precondition draws two streams and classifies their samples.  A stream
that cannot be drawn leaves the precondition unmeasured, so the solvers have no way
to make the task fail, and a classification fails only where a probe of its test is
held.  What is measured before leaves none held.  So measuring succeeds for tests
that are free when it begins, if there is room for the streams, with one record for
each precondition, in order (`measureAll_of_free`, `Suite.resultsAccuracy_of_free`).
-/

import PreconditionMining.Proofs.Suite.Holding
import PreconditionMining.Proofs.Suite.Streams
import PreconditionMining.Suite.Basic

namespace PreconditionMining

namespace Session

variable {φ σ κ : Type} {t : ObservedTest}

theorem Lasting.drawFrom {c : Collaborators φ σ κ} {ctx : Context} {good : Session φ κ → Prop}
    (lasts : Lasting c ctx t good) :
    ∀ (n drawn : Nat) (q : σ) {s : Session φ κ}, good s → good (Session.drawFrom c n drawn q s).2
  | 0, _, _, _, h => h
  | n + 1, drawn, q, s, h => by
    have told := noteAll_keeps lasts.note h (c.solver.solve q).events
    rw [Session.drawFrom]
    rcases (c.solver.solve q).answer with e | sample
    · exact lasts.note _ _ told
    · exact lasts.drawFrom n (drawn + 1) _ told

/-- **What lasts through the steps of drawing a stream lasts through the drawing.** -/
theorem Lasting.drawStream {c : Collaborators φ σ κ} {ctx : Context}
    {good : Session φ κ → Prop} (lasts : Lasting c ctx t good) (count : Nat)
    (formula : Option Formula) {s : Session φ κ} (h : good s) :
    good (s.drawStream c ctx count t formula).2 := by
  have after := lasts.create s formula { ctx.solverOptions t with distinct := false } h
  rw [Session.drawStream]
  rcases built : s.create c ctx formula { ctx.solverOptions t with distinct := false }
    with ⟨e | q, s'⟩ <;> rw [built] at after
  · exact lasts.note _ _ after
  · dsimp only
    split
    · exact after
    · exact lasts.drawFrom count 0 q after

theorem Lasting.split {c : Collaborators φ σ κ} {ctx : Context} {good : Session φ κ → Prop}
    (lasts : Lasting c ctx t good) :
    ∀ (samples : List Tree) {s : Session φ κ}, good s → good (Session.split ctx t samples s).2
  | [], _, h => h
  | sample :: rest, s, h => by
    have after := lasts.classify s sample h
    rw [Session.split]
    rcases judged : s.classify ctx t sample with ⟨e | triggered, s'⟩ <;> rw [judged] at after
    · exact after
    · have later := lasts.split rest after
      rcases halved : Session.split ctx t rest s' with ⟨e | ⟨passing, failing⟩, s''⟩ <;>
        rw [halved] at later
      · simp only [halved]
        exact later
      · simp only [halved]
        exact later

theorem Lasting.measureStreams {c : Collaborators φ σ κ} {ctx : Context} {good : Session φ κ → Prop}
    (lasts : Lasting c ctx t good) (raw constrained : List Tree) {s : Session φ κ} (h : good s) :
    good (Session.measureStreams ctx t raw constrained s).2 := by
  have first := lasts.split raw h
  rw [Session.measureStreams]
  rcases halved : Session.split ctx t raw s with ⟨e | raw, s'⟩ <;> rw [halved] at first
  · exact first
  · have second := lasts.split constrained first
    simp only
    rcases halved' : Session.split ctx t constrained s' with ⟨e | constrained, s''⟩ <;>
      rw [halved'] at second
    · exact second
    · exact lasts.note _ _ second

/-- **What lasts through the steps of a measurement lasts through the measurement.** -/
theorem Lasting.measure {c : Collaborators φ σ κ} {ctx : Context} {good : Session φ κ → Prop}
    (lasts : Lasting c ctx t good) (count : Nat) (precondition : Formula) {s : Session φ κ}
    (h : good s) :
    good (s.measure c ctx count t precondition).2 := by
  have begun := lasts.note s (.measuring t.name precondition.text) h
  have first := lasts.drawStream count ctx.formula begun
  rw [Session.measure]
  rcases drawn : (s.note (.measuring t.name precondition.text)).drawStream c ctx count t
    ctx.formula with ⟨halt | _ | raw, s'⟩ <;> rw [drawn] at first
  · exact first
  · exact lasts.note _ _ first
  · have second := lasts.drawStream count (some (.constrain ctx.formula precondition)) first
    simp only
    rcases drawn' : s'.drawStream c ctx count t (some (.constrain ctx.formula precondition))
      with ⟨halt | _ | constrained, s''⟩ <;> rw [drawn'] at second
    · exact second
    · exact lasts.note _ _ second
    · have third := lasts.measureStreams raw constrained second
      simp only
      rcases judged : Session.measureStreams ctx t raw constrained s'' with ⟨e | m, s'''⟩ <;>
        rw [judged] at third <;> exact third

/-- **The samples of a stream are split where the test is free.** -/
theorem split_of_free (ctx : Context) :
    ∀ (samples : List Tree) {s : Session φ κ}, t.Free s.world →
      ∃ halves s', split ctx t samples s = (.ok halves, s') ∧
        ∀ q, s'.world.inFlight q = s.world.inFlight q
  | [], s, _ => ⟨⟨[], []⟩, s, rfl, fun _ => rfl⟩
  | sample :: rest, s, free => by
    obtain ⟨triggered, s', judged, same⟩ := classify_of_free ctx free sample
    obtain ⟨⟨passing, failing⟩, s'', halved, same'⟩ := split_of_free ctx rest (free.congr same)
    rw [split]
    simp only [judged, halved]
    exact ⟨_, s'', rfl, fun q => (same' q).trans (same q)⟩

theorem measureStreams_of_free (ctx : Context) (raw constrained : List Tree) {s : Session φ κ}
    (free : t.Free s.world) :
    ∃ m s', measureStreams ctx t raw constrained s = (.ok m, s') ∧
      ∀ q, s'.world.inFlight q = s.world.inFlight q := by
  obtain ⟨halves, s', first, same⟩ := split_of_free ctx raw free
  obtain ⟨halves', s'', second, same'⟩ := split_of_free ctx constrained (free.congr same)
  rw [measureStreams]
  simp only [first, second]
  exact ⟨_, _, rfl, fun q => (same' q).trans (same q)⟩

/-- **A precondition is measured, or found not measurable, where the test is free** and there is room
for the streams. -/
theorem measure_of_free (c : Collaborators φ σ κ) (ctx : Context) {count : Nat}
    (room : count ≤ streamCapacity) (precondition : Formula) {s : Session φ κ}
    (free : t.Free s.world) :
    ∃ m s', s.measure c ctx count t precondition = (.ok m, s') ∧
      ∀ q, s'.world.inFlight q = s.world.inFlight q := by
  have lasts := lasting_inFlight c ctx t s.world
  have first := lasts.drawStream count ctx.formula
    (s := s.note (.measuring t.name precondition.text)) fun _ => rfl
  rw [measure]
  rcases drawn : (s.note (.measuring t.name precondition.text)).drawStream c ctx count t
    ctx.formula with ⟨halt | _ | raw, s'⟩ <;> rw [drawn] at first
  · obtain ⟨samples, found⟩ := drawStream_of_room c ctx t room ctx.formula
      (s.note (.measuring t.name precondition.text))
    rw [drawn] at found
    cases found
  · exact ⟨none, _, rfl, first⟩
  · have second := lasts.drawStream count (some (.constrain ctx.formula precondition)) first
    simp only
    rcases drawn' : s'.drawStream c ctx count t (some (.constrain ctx.formula precondition))
      with ⟨halt | _ | constrained, s''⟩ <;> rw [drawn'] at second
    · obtain ⟨samples, found⟩ := drawStream_of_room c ctx t room
        (some (.constrain ctx.formula precondition)) s'
      rw [drawn'] at found
      cases found
    · exact ⟨none, _, rfl, second⟩
    · obtain ⟨m, s''', measured, same⟩ :=
        measureStreams_of_free ctx raw constrained (free.congr second)
      simp only [measured]
      exact ⟨some m, s''', rfl, fun q => (same q).trans (second q)⟩

/-- **Measuring for free tests gives a record for each pair,** where there is room for the
streams. -/
theorem measureAll_of_free (c : Collaborators φ σ κ) (ctx : Context) {count : Nat}
    (room : count ≤ streamCapacity) :
    ∀ (pairs : List (ObservedTest × Formula)) {s : Session φ κ},
      (∀ pair ∈ pairs, pair.1.Free s.world) →
      ∃ records s', measureAll c ctx count pairs s = (.ok records, s') ∧
        records.map (fun r => (r.test, r.precondition)) = pairs
  | [], s, _ => ⟨[], s, rfl, rfl⟩
  | (t, f) :: rest, s, free => by
    obtain ⟨m, s', measured, same⟩ :=
      measure_of_free c ctx room f (free (t, f) List.mem_cons_self)
    obtain ⟨records, s'', later, tied⟩ := measureAll_of_free c ctx room rest (s := s')
      fun pair mem => (free pair (List.mem_cons_of_mem _ mem)).congr same
    rw [measureAll]
    simp only [measured, later]
    exact ⟨_, s'', rfl, by rw [List.map_cons, tied]⟩

end Session

/-- **Measuring all learned preconditions succeeds where the tests are free** and there is room for
the streams, with one record for each pair of a test and a precondition. -/
theorem Suite.resultsAccuracy_of_free {φ σ κ : Type} (c : Collaborators φ σ κ) (suite : Suite)
    {count : Nat} (positive : 1 ≤ count) (room : count ≤ streamCapacity) {s : Session φ κ}
    (free : ∀ result ∈ suite.results, result.test.Free s.world) :
    ∃ records s', suite.resultsAccuracy c count s = (.ok records, s') ∧
      records.map (fun r => (r.test, r.precondition)) = TestResult.pairs suite.results := by
  have each : ∀ pair ∈ TestResult.pairs suite.results, pair.1.Free s.world := by
    intro pair mem
    obtain ⟨result, stored, mem⟩ := List.mem_flatMap.1 mem
    obtain ⟨f, -, rfl⟩ := List.mem_map.1 mem
    exact free result stored
  obtain ⟨records, s', measured, tied⟩ :=
    Session.measureAll_of_free c suite.context room _ each
  rw [resultsAccuracy, if_neg (Nat.ne_of_gt positive), measured]
  exact ⟨records, s', rfl, tied⟩

end PreconditionMining
