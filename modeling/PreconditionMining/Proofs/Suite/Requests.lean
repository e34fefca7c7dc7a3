/-
# What a learner is asked

What a suite asks its learner is seen by a learner that keeps a record: it works as
another one does, and puts each request behind those of the calls before
(`Learner.recording`).

With such a learner a suite does what it does without one.  A discovery asks nothing
(`discover_withRequests`), a dialogue with the learner enters its one request
(`learn_withRequests`), and so an attempt enters at most one request, for the pools
that its run then has (`attempt_withRequests`).
-/

import PreconditionMining.Proofs.Suite.Embedding
import PreconditionMining.Proofs.Suite.Holding

namespace PreconditionMining

/-- The same course of work, and something made of its answer. -/
def Dialogue.map {α β : Type} (f : α → β) : Dialogue α → Dialogue β
  | answer a => answer (f a)
  | ask sample next => ask sample fun verdict => (next verdict).map f
  | watch condition next => watch condition fun granted => (next granted).map f

/-- What is made of the answer of a dialogue is made of what the dialogue comes to. -/
theorem Dialogue.run_map {α β ς : Type} (partner : Partner ς) (f : α → β) :
    ∀ (d : Dialogue α) (s : ς),
      (d.map f).run partner s = (f (d.run partner s).1, (d.run partner s).2)
  | .answer _, _ => rfl
  | .ask sample next, s => run_map partner f (next (partner.ask sample s).1) _
  | .watch condition next, s => by
    rw [map, run, run]
    rcases partner.observe condition s with ⟨e | o, s'⟩
    · exact run_map partner f (next (.error e)) s'
    · simp only [run_map partner f (next (.ok ())) s']

variable {φ σ κ : Type}

/-- The same learner, with a record of its requests. -/
def Learner.recording (learner : Learner κ) : Learner (κ × List LearningRequest) where
  learn request
    | (k, requests) =>
      (learner.learn request k).map fun (answer, k) => (answer, k, requests ++ [request])

/-- The same collaborators, with a record of what the learner is asked. -/
def Collaborators.recordingRequests (c : Collaborators φ σ κ) :
    Collaborators φ σ (κ × List LearningRequest) where
  create := c.create
  solver := c.solver
  learner := c.learner.recording

namespace Session

/-- The same session, with a record of what the learner was asked. -/
def withRequests (s : Session φ κ) (requests : List LearningRequest) :
    Session φ (κ × List LearningRequest) where
  world := s.world
  solvers := s.solvers
  learner := (s.learner, requests)
  events := s.events
  deeds := s.deeds

variable (c : Collaborators φ σ κ) (ctx : Context) (t : ObservedTest)
  (requests : List LearningRequest)

/-- Solvers are built and drawn from as they are without a record. -/
theorem embeds_recordingRequests : c.Embeds id c.recordingRequests := ⟨fun _ _ _ _ => rfl, rfl⟩

/-- **A discovery asks the learner nothing.** -/
theorem discover_withRequests (s : Session φ κ) :
    (s.withRequests requests).discover c.recordingRequests ctx t =
      ((s.discover c ctx t).1, (s.discover c ctx t).2.withRequests requests) :=
  discover_map (g := (·, requests)) (embeds_recordingRequests c) ctx t s

/-- A dialogue goes on as it does without a record. -/
theorem run_withRequests {α : Type} (d : Dialogue α) (s : Session φ κ) :
    d.run (partner ctx t) (s.withRequests requests) =
      ((d.run (partner ctx t) s).1, (d.run (partner ctx t) s).2.withRequests requests) :=
  run_map (f := id) (g := (·, requests)) ctx t d s

/-- **A dialogue with the learner is one request.** -/
theorem learn_withRequests (pools : Pools) (s : Session φ κ) :
    (s.withRequests requests).learn c.recordingRequests ctx t pools =
      ((s.learn c ctx t pools).1, (s.learn c ctx t pools).2.withRequests
        (requests ++ [⟨ctx.grammar, pools, t.options.learner.getD {}⟩])) := by
  rw [learn, learn]
  have same := run_withRequests ctx t requests
    (c.learner.learn ⟨ctx.grammar, pools, t.options.learner.getD {}⟩ s.learner) s
  simp only [Collaborators.recordingRequests, Learner.recording, withRequests, Dialogue.run_map]
    at same ⊢
  rw [same]

end Session

namespace LearningRun

variable (c : Collaborators φ σ κ) (ctx : Context) (requests : List LearningRequest)

/-- What the learner of a run is asked for its pools. -/
def request (ctx : Context) (r : LearningRun) : LearningRequest :=
  ⟨ctx.grammar, r.pools, r.test.options.learner.getD {}⟩

theorem candidates_withRequests (r : LearningRun) (s : Session φ κ) :
    r.candidates c.recordingRequests ctx (s.withRequests requests) =
      ((r.candidates c ctx s).1,
        (r.candidates c ctx s).2.withRequests (requests ++ [r.request ctx])) := by
  rw [candidates, candidates, Session.learn_withRequests]
  rcases s.learn c ctx r.test r.pools with ⟨(e | reason) | found, s'⟩ <;> rfl

/-- **An attempt that succeeds asks the learner once,** for the pools that its run then has; and a
record does not change it. -/
theorem attempt_withRequests {r r' : LearningRun} {s s' : Session φ κ} {a : Attempt}
    (made : r.attempt c ctx s = (.ok a, r', s')) :
    r.attempt c.recordingRequests ctx (s.withRequests requests) =
      (.ok a, r', s'.withRequests (requests ++ [r'.request ctx])) := by
  rw [attempt] at made ⊢
  rw [Session.discover_withRequests]
  rcases found : s.discover c ctx r.test with ⟨e | d, s₁⟩
  all_goals simp only [found] at made ⊢
  · cases made
  · rw [candidates_withRequests]
    rcases named : candidates c ctx { r with made := r.made + 1, pools := r.pools ++ d.pools } s₁
      with ⟨e | candidates, s₂⟩
    all_goals simp only [named] at made ⊢
    · cases made
    · cases made
      rfl

end LearningRun

end PreconditionMining
