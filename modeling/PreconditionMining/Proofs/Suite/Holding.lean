/-
# What a suite leaves held

A suite holds probes only while something lasts: a classification until its
verdict, what a learner watches until the learner has answered.  So after a
discovery, after a dialogue with a learner and after an attempt the same probes
are held as before (`inFlight_discover`, `inFlight_learn`, `inFlight_attempt`), and
it does not matter in which order a suite does these things.

It matters because a test gives a verdict when and only when no probe of its
condition is held (`verdict_isOk_iff`).  What is free for one sample is then free
for all of them, and a discovery for a free test succeeds, whatever its solver does
(`discover_isOk`).
-/

import PreconditionMining.Proofs.Discovery.Confinement
import PreconditionMining.Proofs.Testing.Isolation
import PreconditionMining.Suite.Accuracy

namespace PreconditionMining

namespace ObservedTest

/-- No probe of the condition of a test is held. -/
def Free (t : ObservedTest) (w : World) : Prop := ∀ p ∈ t.condition.leaves, w.inFlight p = false

theorem Free.congr {t : ObservedTest} {v w : World} (h : t.Free v)
    (same : ∀ q, w.inFlight q = v.inFlight q) : t.Free w :=
  fun p hp => by rw [same p, h p hp]

/-- An observation of a free test is granted. -/
theorem Free.granted {t : ObservedTest} {w : World} (h : t.Free w) :
    ∃ o w', t.condition.observe w = (.ok o, w') := by
  obtain ⟨o, answer⟩ := (Condition.observe_isOk_iff t.condition w).2 h
  exact ⟨o, _, Prod.ext answer rfl⟩

/-- **A test gives a verdict when and only when no probe of its condition is held.** -/
theorem verdict_isOk_iff {register : List ObservedTest} {t : ObservedTest} {input : String}
    {w : World} : (∃ b, (classify register t input w).verdict = .ok b) ↔ t.Free w := by
  rw [Free, ← Condition.observe_isOk_iff]
  rcases observed : t.condition.observe w with ⟨e | o, w'⟩
  · rw [classify_of_refused register t input observed]
    simp
  · obtain ⟨-, verdict⟩ := classify_of_granted register t input observed
    rw [verdict]
    simp

end ObservedTest

namespace Session

variable {φ σ κ : Type}

/-- A classification in a session leaves held what was held. -/
theorem inFlight_classify (ctx : Context) (t : ObservedTest) (sample : Tree) (s : Session φ κ)
    (q : Probe) : (s.classify ctx t sample).2.world.inFlight q = s.world.inFlight q :=
  ObservedTest.inFlight_classify ctx.register t (ctx.input sample) s.world q

/-- A test that is free in a session gives a verdict there. -/
theorem classify_isOk (ctx : Context) {t : ObservedTest} {s : Session φ κ} (free : t.Free s.world)
    (sample : Tree) : ∃ b, (s.classify ctx t sample).1 = .ok b :=
  ObservedTest.verdict_isOk_iff.2 free

/-- **A classification by a free test succeeds,** and leaves held what was held. -/
theorem classify_of_free (ctx : Context) {t : ObservedTest} {s : Session φ κ}
    (free : t.Free s.world) (sample : Tree) :
    ∃ triggered s', s.classify ctx t sample = (.ok triggered, s') ∧
      ∀ q, s'.world.inFlight q = s.world.inFlight q := by
  obtain ⟨triggered, verdict⟩ := classify_isOk ctx free sample
  exact ⟨triggered, _, Prod.ext verdict rfl, inFlight_classify ctx t sample s⟩

/-- A property of sessions that lasts through what is told, through the building of solvers and
through the classifications by a test. -/
structure Lasting (c : Collaborators φ σ κ) (ctx : Context) (t : ObservedTest)
    (good : Session φ κ → Prop) : Prop where
  note : ∀ s e, good s → good (s.note e)
  create : ∀ s formula options, good s → good (s.create c ctx formula options).2
  classify : ∀ s sample, good s → good (s.classify ctx t sample).2

theorem noteAll_keeps {good : Session φ κ → Prop} (note : ∀ s e, good s → good (s.note e))
    {s : Session φ κ} (h : good s) (es : List Event) : good (s.noteAll es) := by
  induction es generalizing s with
  | nil => exact h
  | cons e es ih => exact ih (note s e h)

/-- The probes that are held remain those that a world holds. -/
theorem lasting_inFlight (c : Collaborators φ σ κ) (ctx : Context) (t : ObservedTest) (w : World) :
    Lasting c ctx t fun s => ∀ q, s.world.inFlight q = w.inFlight q where
  note _ _ same := same
  create _ _ _ same := same
  classify s sample same q := (inFlight_classify ctx t sample s q).trans (same q)

/-- The learner is left alone. -/
theorem lasting_learner (c : Collaborators φ σ κ) (ctx : Context) (t : ObservedTest) (k : κ) :
    Lasting c ctx t fun s => s.learner = k where
  note _ _ same := same
  create _ _ _ same := same
  classify _ _ same := same

/-- A discovery for a test is one with the sampler of a solver, where a solver is built. -/
theorem discover_of_built {c : Collaborators φ σ κ} {ctx : Context} {t : ObservedTest}
    {s s' : Session φ κ} {q : σ}
    (built : (s.note (.discovering t.name t.condition.description)).create c ctx ctx.formula
      (ctx.solverOptions t) = (.ok q, s')) :
    s.discover c ctx t =
      let out := Discovery.run (sampler c ctx t) ctx.settings (q, s')
      (out.1, match out.1 with
        | .error _ => out.2.2
        | .ok d => out.2.2.note (discovered ctx d)) := by
  rw [discover]
  simp only [built]
  rcases Discovery.run (sampler c ctx t) ctx.settings (q, s') with ⟨e | d, q', s''⟩ <;> rfl

namespace Lasting

variable {c : Collaborators φ σ κ} {ctx : Context} {t : ObservedTest} {good : Session φ κ → Prop}
  {s : Session φ κ}

theorem sampler (lasts : Lasting c ctx t good) :
    (Session.sampler c ctx t).Keeps fun r => good r.2 where
  solve := fun _ h => noteAll_keeps lasts.note h _
  mutate := fun _ _ h => noteAll_keeps lasts.note h _
  classify := fun sample r h => lasts.classify r.2 sample h
  note := fun e r h => lasts.note r.2 e h

/-- **What lasts through the steps of a discovery lasts through the discovery.** -/
theorem discover (lasts : Lasting c ctx t good) (h : good s) : good (s.discover c ctx t).2 := by
  have told := lasts.note s (.discovering t.name t.condition.description) h
  have after := lasts.create _ ctx.formula (ctx.solverOptions t) told
  rcases built : (s.note (.discovering t.name t.condition.description)).create c ctx ctx.formula
    (ctx.solverOptions t) with ⟨e | q, s'⟩ <;> rw [built] at after
  · rw [Session.discover]
    simp only [built]
    exact lasts.note _ _ after
  · have kept := Discovery.good_run lasts.sampler ctx.settings (s := (q, s')) after
    rw [discover_of_built built]
    rcases out : Discovery.run (Session.sampler c ctx t) ctx.settings (q, s')
      with ⟨e | d, q', s''⟩ <;> rw [out] at kept
    · exact kept
    · exact lasts.note _ _ kept

end Lasting

/-- **A discovery leaves held what was held.** -/
theorem inFlight_discover (c : Collaborators φ σ κ) (ctx : Context) (t : ObservedTest)
    (s : Session φ κ) (p : Probe) :
    (s.discover c ctx t).2.world.inFlight p = s.world.inFlight p :=
  (lasting_inFlight c ctx t s.world).discover (fun _ => rfl) p

/-- **A discovery for a free test succeeds,** whatever its solver does. -/
theorem discover_isOk (c : Collaborators φ σ κ) (ctx : Context) {t : ObservedTest}
    {s : Session φ κ} (free : t.Free s.world) : ∃ d, (s.discover c ctx t).1 = .ok d := by
  have lasts := lasting_inFlight c ctx t s.world
  have after := lasts.create (s.note (.discovering t.name t.condition.description)) ctx.formula
    (ctx.solverOptions t) fun _ => rfl
  rcases built : (s.note (.discovering t.name t.condition.description)).create c ctx ctx.formula
    (ctx.solverOptions t) with ⟨e | q, s'⟩ <;> rw [built] at after
  · rw [discover]
    simp only [built]
    exact ⟨_, rfl⟩
  · rw [discover_of_built built]
    exact Discovery.run_isOk lasts.sampler
      (fun sample r held => classify_isOk ctx (free.congr held) sample) ctx.settings
      (s := (q, s')) after

/-- With what a discovery for a free test finds, the learner is left alone, and what was held is
held. -/
theorem discover_of_free (c : Collaborators φ σ κ) (ctx : Context) {t : ObservedTest}
    {s : Session φ κ} (free : t.Free s.world) :
    ∃ d s', s.discover c ctx t = (.ok d, s') ∧ s'.learner = s.learner ∧
      ∀ q, s'.world.inFlight q = s.world.inFlight q := by
  obtain ⟨d, found⟩ := discover_isOk c ctx free
  exact ⟨d, _, Prod.ext found rfl, (lasting_learner c ctx t s.learner).discover rfl,
    inFlight_discover c ctx t s⟩

/-- **A dialogue leaves held what was held:** what is watched in it is released at its end. -/
theorem inFlight_run {α : Type} (ctx : Context) (t : ObservedTest) (p : Probe) :
    ∀ (d : Dialogue α) (s : Session φ κ),
      (d.run (partner ctx t) s).2.world.inFlight p = s.world.inFlight p
  | .answer a, s => rfl
  | .ask sample next, s => by
    rw [Dialogue.run]
    exact (inFlight_run ctx t p (next _) _).trans (inFlight_classify ctx t sample s p)
  | .watch condition next, s => by
    rw [Dialogue.run]
    rcases observed : condition.observe s.world with ⟨e | o, w⟩
    · simp only [partner, observed]
      exact (inFlight_run ctx t p (next _) _).trans
        (Condition.inFlight_observe_error observed p)
    · simp only [partner, observed]
      exact Condition.inFlight_release observed
        (fun q => inFlight_run ctx t q (next (.ok ())) { s with world := w }) p

theorem inFlight_learn (c : Collaborators φ σ κ) (ctx : Context) (t : ObservedTest) (pools : Pools)
    (s : Session φ κ) (p : Probe) :
    (s.learn c ctx t pools).2.world.inFlight p = s.world.inFlight p :=
  inFlight_run ctx t p (c.learner.learn ⟨ctx.grammar, pools, t.options.learner.getD {}⟩ s.learner) s

end Session

namespace LearningRun

variable {φ σ κ : Type}

/-- What comes of asking for candidates, apart from what is told, is what comes of the dialogue with
the learner. -/
theorem candidates_after (c : Collaborators φ σ κ) (ctx : Context) (r : LearningRun)
    (s : Session φ κ) :
    (r.candidates c ctx s).2.world = (s.learn c ctx r.test r.pools).2.world ∧
      (r.candidates c ctx s).2.learner = (s.learn c ctx r.test r.pools).2.learner := by
  rw [candidates]
  rcases s.learn c ctx r.test r.pools with ⟨(e | reason) | found, s'⟩ <;> exact ⟨rfl, rfl⟩

/-- **An attempt leaves held what was held.** -/
theorem inFlight_attempt (c : Collaborators φ σ κ) (ctx : Context) (r : LearningRun)
    (s : Session φ κ) (p : Probe) :
    (r.attempt c ctx s).2.2.world.inFlight p = s.world.inFlight p := by
  have kept := Session.inFlight_discover c ctx r.test s p
  rw [attempt]
  rcases found : s.discover c ctx r.test with ⟨e | d, s'⟩ <;> rw [found] at kept
  · exact kept
  · simp only
    have kept' : (candidates c ctx { r with made := r.made + 1, pools := r.pools ++ d.pools }
        s').2.world.inFlight p = s'.world.inFlight p := by
      rw [(candidates_after c ctx _ s').1]
      exact Session.inFlight_learn c ctx r.test _ s' p
    rcases named : candidates c ctx { r with made := r.made + 1, pools := r.pools ++ d.pools } s'
      with ⟨e | candidates, s''⟩ <;> rw [named] at kept' <;> exact kept'.trans kept

end LearningRun

end PreconditionMining
