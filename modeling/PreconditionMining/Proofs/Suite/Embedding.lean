/-
# Sessions over other states of the collaborators

A session has the states of its collaborators in it, and most of what it does never looks at
them.  Collaborators may build and draw as other ones do, in states that stand for the states
of those (`Collaborators.Embeds`), as they do when one of the two keeps a record and the other
one does not.  Then a discovery comes to the same with either, and so does a dialogue, in which
nothing is built or drawn (`discover_map`, `run_map`).
-/

import PreconditionMining.Proofs.Discovery.Confinement
import PreconditionMining.Suite.Session

namespace PreconditionMining

variable {φ φ' σ κ κ' : Type}

/-- Solvers are built and drawn from as those of other collaborators are, in the states that the
states of their builder stand for. -/
structure Collaborators.Embeds (inner : Collaborators φ σ κ) (f : φ → φ')
    (c : Collaborators φ' σ κ') : Prop where
  create : ∀ g formula options solvers, c.create g formula options (f solvers) =
    ((inner.create g formula options solvers).1, f (inner.create g formula options solvers).2)
  solver : c.solver = inner.solver

namespace Session

/-- The same session over other states of the collaborators. -/
def map (f : φ → φ') (g : κ → κ') (s : Session φ κ) : Session φ' κ' where
  world := s.world
  solvers := f s.solvers
  learner := g s.learner
  events := s.events
  deeds := s.deeds

variable {inner : Collaborators φ σ κ} {f : φ → φ'} {g : κ → κ'} {c : Collaborators φ' σ κ'}

theorem noteAll_map (es : List Event) (s : Session φ κ) :
    (s.map f g).noteAll es = (s.noteAll es).map f g := by
  induction es generalizing s with
  | nil => rfl
  | cons e es ih => exact ih (s.note e)

theorem create_map (h : inner.Embeds f c) (ctx : Context) (formula : Option Formula)
    (options : SolverOptions) (s : Session φ κ) :
    (s.map f g).create c ctx formula options =
      ((s.create inner ctx formula options).1, (s.create inner ctx formula options).2.map f g) := by
  have built : c.create ctx.grammar formula options (s.map f g).solvers = _ :=
    h.create ctx.grammar formula options s.solvers
  rw [create, built]
  rfl

/-- Drawing and judging go on as they do over the other states. -/
theorem embeds_sampler (h : inner.Embeds f c) (ctx : Context) (t : ObservedTest) :
    (sampler inner ctx t).Embeds (fun r : σ × Session φ κ => (r.1, r.2.map f g))
      (sampler c ctx t) := by
  rw [sampler, sampler, h.solver]
  exact ⟨fun r => congrArg (fun s => (_, _, s)) (noteAll_map _ r.2),
    fun _ r => congrArg (fun s => (_, _, s)) (noteAll_map _ r.2), fun _ _ => rfl, fun _ _ => rfl⟩

/-- **A discovery comes to the same** over the other states. -/
theorem discover_map (h : inner.Embeds f c) (ctx : Context) (t : ObservedTest) (s : Session φ κ) :
    (s.map f g).discover c ctx t =
      ((s.discover inner ctx t).1, (s.discover inner ctx t).2.map f g) := by
  have noted : (s.map f g).note (.discovering t.name t.condition.description) =
      (s.note (.discovering t.name t.condition.description)).map f g := rfl
  rw [discover, discover, noted, create_map h]
  rcases (s.note (.discovering t.name t.condition.description)).create inner ctx ctx.formula
    (ctx.solverOptions t) with ⟨e | q, s'⟩
  · rfl
  · have same := Discovery.run_embeds (embeds_sampler (g := g) h ctx t) ctx.settings (q, s')
    simp only at same ⊢
    rw [same]
    rcases Discovery.run (sampler inner ctx t) ctx.settings (q, s') with ⟨e | d, q', s''⟩ <;> rfl

/-- **A dialogue comes to the same** over other states. -/
theorem run_map (ctx : Context) (t : ObservedTest) {α : Type} :
    ∀ (d : Dialogue α) (s : Session φ κ),
      d.run (partner ctx t) (s.map f g) =
        ((d.run (partner ctx t) s).1, (d.run (partner ctx t) s).2.map f g)
  | .answer _, _ => rfl
  | .ask sample next, s => by
    rw [Dialogue.run, Dialogue.run]
    exact run_map ctx t (next (s.classify ctx t sample).1) (s.classify ctx t sample).2
  | .watch condition next, s => by
    rw [Dialogue.run, Dialogue.run]
    rcases observed : condition.observe s.world with ⟨e | o, w⟩
    all_goals
      have observed' : condition.observe (s.map f g).world = (_, w) := observed
      simp only [partner, observed, observed']
    · exact run_map ctx t (next (.error e)) { s with world := w }
    · have same := run_map ctx t (next (.ok ())) { s with world := w }
      exact congrArg (fun out => (out.1, (partner ctx t).release o out.2)) same

end Session

end PreconditionMining
