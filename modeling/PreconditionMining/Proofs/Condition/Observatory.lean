/-
# Operations on probes and conditions

All that can be done to the probes is a sequence of operations: to trigger and
to reset, through a probe or through any condition that reads it, and to begin
and to end observations.  An observatory is the state that such a sequence goes
through: the world, and the observations begun so far, of which those count that
have not ended.

An observation is known by its place.  Whoever holds it may end it at any time,
so the operations end observations in any order; a place that is empty stays
empty (`guards_drop`).
-/

import PreconditionMining.Condition.Observation

namespace PreconditionMining

/-- The state of all probes with the observations begun so far, in the order in which they were
begun; the place of an ended observation is empty. -/
structure Observatory where
  world : World
  guards : List (Option Observation)

/-- One thing that is done to probes, conditions or observations. -/
inductive Operation
  | triggerProbe (probe : Probe) (times : Nat)
  | trigger (condition : Condition)
  | resetProbe (probe : Probe)
  | reset (condition : Condition)
  | observe (condition : Condition)
  | drop (guard : Nat)

namespace Observatory

/-- The beginning: nothing has happened to any probe. -/
def initial : Observatory := ⟨World.initial, []⟩

/-- Begins an observation, if it is granted. -/
def observe (s : Observatory) (c : Condition) : Observatory :=
  match c.observe s.world with
  | (.ok o, w) => ⟨w, s.guards ++ [some o]⟩
  | (.error _, w) => ⟨w, s.guards⟩

/-- Ends the observation at a place, if there is one. -/
def drop (s : Observatory) (guard : Nat) : Observatory :=
  match s.guards[guard]? with
  | some (some o) => ⟨o.release s.world, s.guards.set guard none⟩
  | _ => s

/-- Does one operation. -/
def step (s : Observatory) : Operation → Observatory
  | .triggerProbe p times => { s with world := s.world.trigger p times }
  | .trigger c => { s with world := (c.trigger s.world).2 }
  | .resetProbe p => { s with world := s.world.reset p }
  | .reset c => { s with world := c.reset s.world }
  | .observe c => s.observe c
  | .drop guard => s.drop guard

/-- Does operations one after another. -/
def run (ops : List Operation) : Observatory := ops.foldl step initial

/-- Whether the observation at a place is alive and holds a probe. -/
def Lists (s : Observatory) (i : Nat) (p : Probe) : Prop :=
  ∃ o, s.guards[i]? = some (some o) ∧ p.id ∈ o.probes.map (·.id)

theorem Lists.lt_length {s : Observatory} {i : Nat} {p : Probe} (h : s.Lists i p) :
    i < s.guards.length := by
  obtain ⟨o, here, -⟩ := h
  exact (List.getElem?_eq_some_iff.1 here).1

/-- Triggering a condition leaves held what was held. -/
theorem inFlight_trigger (c : Condition) (w : World) (p : Probe) :
    (c.trigger w).2.inFlight p = w.inFlight p := by
  unfold Condition.trigger
  split <;> simp

/-- Dropping empties one place and leaves the others as they were. -/
theorem guards_drop (s : Observatory) (guard i : Nat) :
    (s.drop guard).guards[i]? = if i = guard then s.guards[i]?.map fun _ => none else s.guards[i]? := by
  unfold drop
  split
  · next o here =>
    by_cases same : i = guard
    · subst same
      obtain ⟨lt, -⟩ := List.getElem?_eq_some_iff.1 here
      simp [lt]
    · simp [same, Ne.symm same]
  · next empty =>
    by_cases same : i = guard
    · subst same
      cases here : s.guards[i]? with
      | none => simp
      | some g =>
        cases g with
        | none => simp
        | some o => exact absurd here (empty o)
    · simp [same]

theorem lists_drop {s : Observatory} {guard i : Nat} {p : Probe} :
    (s.drop guard).Lists i p ↔ s.Lists i p ∧ i ≠ guard := by
  unfold Lists
  rw [guards_drop]
  by_cases same : i = guard
  · subst same
    cases s.guards[i]? <;> simp
  · simp [same]

/-- **Dropping several observations, in any order, ends these and no others.** -/
theorem lists_dropAll {order : List Nat} {s : Observatory} {i : Nat} {p : Probe} :
    (order.foldl drop s).Lists i p ↔ s.Lists i p ∧ i ∉ order := by
  induction order generalizing s with
  | nil => simp
  | cons guard order ih =>
    rw [List.foldl_cons, ih, lists_drop, List.mem_cons, not_or, and_assoc]

/-- The observations after a granted one: those before, and the new one at the end. -/
theorem lists_append {w : World} {gs : List (Option Observation)} {o : Observation} {i : Nat}
    {p : Probe} : Lists ⟨w, gs ++ [some o]⟩ i p ↔
      Lists ⟨w, gs⟩ i p ∨ i = gs.length ∧ p.id ∈ o.probes.map (·.id) := by
  unfold Lists
  rcases Nat.lt_trichotomy i gs.length with lt | rfl | gt
  · rw [List.getElem?_append_left lt]
    have : i ≠ gs.length := Nat.ne_of_lt lt
    simp [this]
  · simp
  · have : i ≠ gs.length := Nat.ne_of_gt gt
    have beyond : gs[i]? = none := List.getElem?_eq_none (Nat.le_of_lt gt)
    have beyond' : (gs ++ [some o])[i]? = none := List.getElem?_eq_none (by simp; omega)
    simp [this, beyond, beyond']

end Observatory

end PreconditionMining
