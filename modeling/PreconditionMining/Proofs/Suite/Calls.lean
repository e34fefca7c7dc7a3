/-
# The calls of a suite's discoveries

For a discovery a suite has a solver built and drops it afterwards, so that only
what the solver tells is left of it.  `Session.calls` is the journal of that
discovery; it is empty where no solver is built.  It is true to the discovery
itself: solvers that tell of each call for a sample (`Collaborators.telling`) leave
everything else as it is, and the discovery tells as much more as the journal has
such calls (`discover_telling`).

By its calls one says how a discovery of a suite begins, ends and fails.  Where
there are tries, a solver that was built is asked for a sample (`draws_ne_nil`).
A discovery that ends because there are enough positive samples has as many as are
wanted (`target_le_positive`).  And a discovery fails when and only when one of its
classifications was refused (`discover_eq_error_iff`).
-/

import PreconditionMining.Proofs.Discovery.Ending
import PreconditionMining.Proofs.Suite.Holding

namespace PreconditionMining

namespace Discovery

/-- **Exploration from scratch asks for a sample** where it has a try. -/
theorem Exploring.draws_ne_nil {quota tries : Nat} {part : Journal}
    {result : Except ConditionError (Pools × Option SolverError)}
    (h : Exploring quota tries .empty part result) (some : 0 < tries) : part.draws ≠ [] := by
  cases h with
  | spent => exact absurd some (Nat.lt_irrefl 0)
  | filled full => exact absurd full.1 (Nat.not_lt_zero quota)
  | refused short => exact List.cons_ne_nil _ _
  | misjudged short => exact List.cons_ne_nil _ _
  | filed short rest => exact List.cons_ne_nil _ _

/-- So does a discovery, which begins with an exploration. -/
theorem Course.draws_ne_nil {settings : SuiteSettings} {exploration : Journal} {ws : List Sweep}
    {result : Except ConditionError Discovery} (h : Course settings exploration ws result)
    (some : 0 < settings.numTries) : exploration.draws ≠ [] := by
  cases h with
  | misjudged explored => exact explored.draws_ne_nil some
  | refused explored final => exact explored.draws_ne_nil some
  | mutated explored mild swept => exact explored.draws_ne_nil some

/-- A solver that refuses is never taken for a target that is reached. -/
theorem ofSolver_ne_targetReached (e : SolverError) : Stop.ofSolver e ≠ .targetReached := by
  cases e <;> exact nofun

/-- The sweeps themselves never end a discovery for having reached the target. -/
theorem Mutating.stop_ne_targetReached {target tries : Nat} {pools : Pools} {ws : List Sweep}
    {final : Swept} (h : Mutating target tries pools ws (.ok final)) :
    final.stop ≠ some .targetReached := by
  rcases h.ending with ⟨stop, -⟩ | ⟨-, -, e, stop, -⟩ | ⟨stop, -⟩ <;> rw [stop]
  · exact nofun
  · exact fun same => ofSolver_ne_targetReached e (Option.some.inj same)
  · exact nofun

/-- **A discovery that reaches its target has as many positive samples as are wanted.** -/
theorem Course.target_le_positive {settings : SuiteSettings} {exploration : Journal}
    {ws : List Sweep} {d : Discovery} (h : Course settings exploration ws (.ok d))
    (reached : d.stop = .targetReached) :
    settings.targetNumSamples ≤ d.pools.positive.length := by
  generalize result : (Except.ok d : Except ConditionError Discovery) = out at h
  cases h with
  | misjudged => cases result
  | refused explored final =>
    cases result
    exact absurd reached (ofSolver_ne_targetReached _)
  | @mutated found refusal _ outcome explored mild mutated =>
    cases outcome with
    | error e => cases result
    | ok swept =>
      cases result
      dsimp only at reached ⊢
      cases stop : swept.stop with
      | none =>
        rw [stop, Option.getD_none] at reached
        exact finalStop_eq_targetReached_iff.1 reached
      | some other =>
        rw [stop, Option.getD_some] at reached
        exact absurd (stop.trans (congrArg some reached)) mutated.stop_ne_targetReached

end Discovery

/-- The same collaborators, with solvers that tell of each call for a sample by an event, before
anything else that they tell. -/
def Collaborators.telling {φ σ κ : Type} (mark : Event) (c : Collaborators φ σ κ) :
    Collaborators φ σ κ where
  create := c.create
  solver :=
    { solve := fun q => { c.solver.solve q with events := mark :: (c.solver.solve q).events }
      mutate := c.solver.mutate }
  learner := c.learner

namespace Session

open Discovery

variable {φ σ κ : Type}

/-- **A session tells more than another one,** by a number of events, and is the same apart from
what is told. -/
structure TellsMore (n : Nat) (s s' : Session φ κ) : Prop where
  same : s' = { s with events := s'.events }
  size : s'.events.size = s.events.size + n

namespace TellsMore

variable {n : Nat} {s s' : Session φ κ}

/-- A session tells no more than itself. -/
theorem refl (s : Session φ κ) : TellsMore 0 s s := ⟨rfl, rfl⟩

/-- What both tell makes no difference. -/
theorem note (h : TellsMore n s s') (e : Event) : TellsMore n (s.note e) (s'.note e) where
  same := congrArg (fun z => z.note e) h.same
  size := by
    simp only [Session.note, Array.size_push, h.size]
    omega

/-- Nor do several events that both tell. -/
theorem noteAll (h : TellsMore n s s') (es : List Event) :
    TellsMore n (s.noteAll es) (s'.noteAll es) := by
  induction es generalizing s s' with
  | nil => exact h
  | cons e es ih => exact ih (h.note e)

/-- What only the other one tells is one event more. -/
theorem tell (h : TellsMore n s s') (e : Event) : TellsMore (n + 1) s (s'.note e) where
  same := congrArg (fun z => z.note e) h.same
  size := by
    simp only [Session.note, Array.size_push, h.size]
    omega

/-- A classification tells nothing, and nothing that was told has a part in it. -/
theorem classify (h : TellsMore n s s') (ctx : Context) (t : ObservedTest) (sample : Tree) :
    (s.classify ctx t sample).1 = (s'.classify ctx t sample).1 ∧
      TellsMore n (s.classify ctx t sample).2 (s'.classify ctx t sample).2 := by
  have judged := congrArg (fun z => z.classify ctx t sample) h.same
  exact ⟨(congrArg Prod.fst judged).symm, congrArg Prod.snd judged, h.size⟩

end TellsMore

/-- What comes of having a solver built for the discovery for a test. -/
def discoverySolver (c : Collaborators φ σ κ) (ctx : Context) (t : ObservedTest)
    (s : Session φ κ) : Except SolverError σ × Session φ κ :=
  (s.note (.discovering t.name t.condition.description)).create c ctx ctx.formula
    (ctx.solverOptions t)

/-- **The calls of the discovery for a test,** with the solver that is built for it. -/
def calls (c : Collaborators φ σ κ) (ctx : Context) (t : ObservedTest) (s : Session φ κ) :
    Journal :=
  match s.discoverySolver c ctx t with
  | (.error _, _) => []
  | (.ok q, s) => journal (sampler c ctx t) ctx.settings (q, s)

variable {c : Collaborators φ σ κ} {ctx : Context} {t : ObservedTest} {s : Session φ κ}

/-- Without a solver nothing is called and nothing is found. -/
theorem discover_of_unbuilt {e : SolverError} {s' : Session φ κ}
    (unbuilt : s.discoverySolver c ctx t = (.error e, s')) :
    s.calls c ctx t = [] ∧ (s.discover c ctx t).1 = .ok (.nothing (.ofSolver e)) := by
  rw [calls, unbuilt, discover, show create c ctx _ _ _ = _ from unbuilt]
  exact ⟨rfl, rfl⟩

/-- With a solver the discovery takes the course that its calls tell. -/
theorem exists_course_of_built {q : σ} {s' : Session φ κ}
    (built : s.discoverySolver c ctx t = (.ok q, s')) :
    ∃ exploration ws, s.calls c ctx t = exploration ++ callsOf ws ∧
      Course ctx.settings exploration ws (s.discover c ctx t).1 := by
  obtain ⟨exploration, ws, whole, -, course⟩ :=
    exists_course (sampler c ctx t) ctx.settings (q, s')
  rw [calls, built, discover_of_built built]
  exact ⟨exploration, ws, whole, course⟩

/-- Drawing goes on as it does, and tells one event more for each call for a sample. -/
theorem similar_telling (mark : Event) (c : Collaborators φ σ κ) (ctx : Context)
    (t : ObservedTest) :
    (sampler c ctx t).recording.Similar (sampler (c.telling mark) ctx t) fun x y =>
      y.1 = x.1.1 ∧ TellsMore x.2.draws.length x.1.2 y.2 where
  solve := by
    rintro ⟨⟨q, s⟩, calls⟩ ⟨q', s'⟩ ⟨same, more⟩
    subst same
    refine ⟨rfl, rfl, ?_⟩
    rw [Sampler.solve_recording, Journal.draws_solved, List.length_append]
    exact (more.tell mark).noteAll _
  mutate := by
    rintro sample ⟨⟨q, s⟩, calls⟩ ⟨q', s'⟩ ⟨same, more⟩
    subst same
    refine ⟨rfl, rfl, ?_⟩
    rw [Sampler.mutate_recording, Journal.draws_of_undrawn rfl]
    exact more.noteAll _
  classify := by
    rintro sample ⟨⟨q, s⟩, calls⟩ ⟨q', s'⟩ ⟨same, more⟩
    subst same
    obtain ⟨verdict, after⟩ := more.classify ctx t sample
    refine ⟨verdict, rfl, ?_⟩
    rw [Sampler.classify_recording, Journal.draws_of_undrawn rfl]
    exact after
  note := by
    rintro e ⟨⟨q, s⟩, calls⟩ ⟨q', s'⟩ ⟨same, more⟩
    exact ⟨same, more.note e⟩

/-- **A discovery with telling solvers comes to the same,** and tells one event more for each call
for a sample. -/
theorem discover_telling (mark : Event) (c : Collaborators φ σ κ) (ctx : Context)
    (t : ObservedTest) (s : Session φ κ) :
    (s.discover (c.telling mark) ctx t).1 = (s.discover c ctx t).1 ∧
      TellsMore (s.calls c ctx t).draws.length (s.discover c ctx t).2
        (s.discover (c.telling mark) ctx t).2 := by
  rcases built : s.discoverySolver c ctx t with ⟨e | q, s'⟩
  all_goals
    have built' : s.discoverySolver (c.telling mark) ctx t = _ := built
    rw [discoverySolver] at built built'
    rw [calls, discoverySolver, built]
  · rw [discover, discover, built, built']
    exact ⟨rfl, .refl _⟩
  · rw [discover_of_built built, discover_of_built built']
    obtain ⟨same, -, more⟩ := run_similar (similar_telling mark c ctx t) ctx.settings
      (s := ((q, s'), [])) (t := (q, s')) ⟨rfl, .refl s'⟩
    rw [run_recording] at same more
    simp only [← same]
    refine ⟨trivial, ?_⟩
    rcases (run (sampler c ctx t) ctx.settings (q, s')).1 with e | d
    · exact more
    · exact more.note _

/-- **A solver that was built is asked for a sample** where there are tries. -/
theorem draws_ne_nil (tries : 0 < ctx.settings.numTries)
    (built : ∃ q, (s.discoverySolver c ctx t).1 = .ok q) : (s.calls c ctx t).draws ≠ [] := by
  obtain ⟨q, built⟩ := built
  have built : s.discoverySolver c ctx t = (.ok q, (s.discoverySolver c ctx t).2) :=
    Prod.ext built rfl
  obtain ⟨exploration, ws, whole, course⟩ := exists_course_of_built built
  rw [whole, Journal.draws_append]
  exact fun none => course.draws_ne_nil tries (List.append_eq_nil_iff.1 none).1

/-- **A discovery for a test that reaches its target has as many positive samples as are wanted.** -/
theorem target_le_positive {d : Discovery} (found : (s.discover c ctx t).1 = .ok d)
    (reached : d.stop = .targetReached) :
    ctx.settings.targetNumSamples ≤ d.pools.positive.length := by
  rcases built : s.discoverySolver c ctx t with ⟨e | q, s'⟩
  · obtain rfl := Except.ok.inj ((discover_of_unbuilt built).2.symm.trans found)
    exact absurd reached (ofSolver_ne_targetReached e)
  · obtain ⟨exploration, ws, -, course⟩ := exists_course_of_built built
    exact (found ▸ course).target_le_positive reached

/-- **A discovery fails with the refusal of one of its classifications,** and it fails whenever one
is refused. -/
theorem discover_eq_error_iff {e : ConditionError} :
    (s.discover c ctx t).1 = .error e ↔ ∃ sample, .judged sample (.error e) ∈ s.calls c ctx t := by
  rcases built : s.discoverySolver c ctx t with ⟨refusal | q, s'⟩
  · obtain ⟨nothing, found⟩ := discover_of_unbuilt built
    rw [found, nothing]
    exact ⟨nofun, fun ⟨_, mem⟩ => nomatch mem⟩
  · obtain ⟨exploration, ws, whole, course⟩ := exists_course_of_built built
    have filing := course.filing
    rw [← whole] at filing
    constructor
    · intro failed
      obtain ⟨earlier, sample, ends, -⟩ := filing.fails e (by rw [failed]; rfl)
      exact ⟨sample, ends ▸ List.mem_append_right _ List.mem_cons_self⟩
    · rintro ⟨sample, mem⟩
      cases out : (s.discover c ctx t).1 with
      | ok d => exact absurd mem ((filing.files d.pools (by rw [out]; rfl)).1 sample e)
      | error e' =>
        -- of the refusals in a journal only its last entry is one
        obtain ⟨earlier, sample', ends, smooth⟩ := filing.fails e' (by rw [out]; rfl)
        rw [ends] at mem
        rcases List.mem_append.1 mem with before | last
        · exact absurd before (smooth sample e)
        · cases List.mem_singleton.1 last
          rfl

end Session

end PreconditionMining
