/-
# At most one observation at a time

A probe is held by one observation or by none.  Holding is a flag that claiming
sets and dropping clears without looking, so this takes an invariant that ties
the flags to the live observations: each flag that is set has a live observation
that lists the probe, no two of them list the same probe, and none lists a probe
twice (`Exclusive`).  Each operation keeps it (`exclusive_step`).  A refused
observation gives back what it claimed; and dropping clears only flags that no
other observation accounts for, because the lists are disjoint.
-/

import PreconditionMining.Proofs.Condition.Observatory

namespace PreconditionMining
namespace Observatory

/-- The flags are those of the live observations, whose probes are all different. -/
structure Exclusive (s : Observatory) : Prop where
  flag : ∀ p, s.world.inFlight p = true ↔ ∃ i, s.Lists i p
  unique : ∀ i j p, s.Lists i p → s.Lists j p → i = j
  nodup : ∀ (i : Nat) (o : Observation), s.guards[i]? = some (some o) → (o.probes.map (·.id)).Nodup

theorem exclusive_initial : initial.Exclusive where
  flag p := by simp [initial, Lists, World.inFlight, World.cell, World.initial, Cell.fresh]
  unique i j p h := by simp [initial, Lists] at h
  nodup i o h := by simp [initial] at h

/-- An operation that leaves flags and observations alone keeps the invariant. -/
theorem Exclusive.of_same {s : Observatory} (h : s.Exclusive) {w : World}
    (same : ∀ p, w.inFlight p = s.world.inFlight p) : Exclusive ⟨w, s.guards⟩ where
  flag p := by rw [same p]; exact h.flag p
  unique := h.unique
  nodup := h.nodup

theorem exclusive_observe {s : Observatory} (h : s.Exclusive) (c : Condition) :
    (s.observe c).Exclusive := by
  unfold observe
  split
  · next o w granted =>
    obtain ⟨rfl, free, flags⟩ := Condition.observe_ok granted
    -- A probe that some observation lists is held, so it is not among the probes claimed now.
    have apart : ∀ i p, s.Lists i p → p.id ∉ c.probes.map (·.id) := by
      intro i p lists mem
      obtain ⟨q, hq, same⟩ := List.mem_map.1 mem
      have held := (h.flag p).2 ⟨i, lists⟩
      rw [← World.inFlight_of_id same, free q hq] at held
      cases held
    refine ⟨fun p => ?_, fun i j p hi hj => ?_, fun i o here => ?_⟩
    · rw [flags p, Bool.or_eq_true, decide_eq_true_eq, h.flag p]
      simp only [lists_append]
      constructor
      · rintro (⟨i, lists⟩ | mem)
        · exact ⟨i, .inl lists⟩
        · exact ⟨s.guards.length, .inr ⟨rfl, mem⟩⟩
      · rintro ⟨i, lists | ⟨-, mem⟩⟩
        · exact .inl ⟨i, lists⟩
        · exact .inr mem
    · rcases lists_append.1 hi with li | ⟨rfl, mi⟩ <;> rcases lists_append.1 hj with lj | ⟨rfl, mj⟩
      · exact h.unique i j p li lj
      · exact absurd mj (apart i p li)
      · exact absurd mi (apart j p lj)
      · rfl
    · rcases List.mem_append.1 (List.mem_of_getElem? here) with mem | mem
      · obtain ⟨k, lt, eq⟩ := List.mem_iff_getElem.1 mem
        exact h.nodup k o (List.getElem?_eq_some_iff.2 ⟨lt, eq⟩)
      · obtain rfl : o = ⟨c, c.probes⟩ := by simpa using mem
        exact Condition.nodup_ids_distinct c.leaves
  · next e w refused =>
    exact h.of_same fun p => Condition.inFlight_observe_error refused p

theorem exclusive_drop {s : Observatory} (h : s.Exclusive) (guard : Nat) :
    (s.drop guard).Exclusive := by
  refine ⟨fun p => ?_, fun i j p hi hj => ?_, fun i o here => ?_⟩
  · simp only [lists_drop]
    unfold drop
    split
    · next o here =>
      have listed : s.Lists guard p ↔ p.id ∈ o.probes.map (·.id) := by
        simp [Lists, here]
      simp only [Observation.release, World.inFlight_freeAll]
      constructor
      · intro held
        split at held
        · cases held
        · next other =>
          obtain ⟨i, lists⟩ := (h.flag p).1 held
          refine ⟨i, lists, ?_⟩
          rintro rfl
          exact other (listed.1 lists)
      · rintro ⟨i, lists, other⟩
        rw [if_neg, h.flag p]
        · exact ⟨i, lists⟩
        · exact fun mem => other (h.unique i guard p lists (listed.2 mem))
    · next empty =>
      rw [h.flag p]
      refine exists_congr fun i => ⟨fun lists => ⟨lists, ?_⟩, fun lists => lists.1⟩
      rintro rfl
      obtain ⟨o, here, -⟩ := lists
      exact empty o here
  · exact h.unique i j p (lists_drop.1 hi).1 (lists_drop.1 hj).1
  · rw [guards_drop] at here
    split at here
    · cases kept : s.guards[i]? <;> simp [kept] at here
    · exact h.nodup i o here

/-- **Each operation keeps the invariant.** -/
theorem exclusive_step {s : Observatory} (h : s.Exclusive) (op : Operation) :
    (s.step op).Exclusive := by
  cases op with
  | triggerProbe p times => exact h.of_same fun q => World.inFlight_trigger s.world p q times
  | trigger c => exact h.of_same fun q => inFlight_trigger c s.world q
  | resetProbe p => exact h.of_same fun q => World.inFlight_reset s.world p q
  | reset c => exact h.of_same fun q => World.inFlight_resetAll c.leaves s.world q
  | observe c => exact exclusive_observe h c
  | drop guard => exact exclusive_drop h guard

/-- **The invariant holds after every sequence of operations.** -/
theorem exclusive_run (ops : List Operation) : (run ops).Exclusive := by
  have from_here : ∀ (ops : List Operation) (s : Observatory), s.Exclusive →
      (ops.foldl step s).Exclusive := by
    intro ops
    induction ops with
    | nil => exact fun s h => h
    | cons op ops ih => exact fun s h => ih (s.step op) (exclusive_step h op)
  exact from_here ops initial exclusive_initial

theorem exclusive_dropAll {s : Observatory} (h : s.Exclusive) (order : List Nat) :
    (order.foldl drop s).Exclusive := by
  induction order generalizing s with
  | nil => exact h
  | cons guard order ih => exact ih (exclusive_drop h guard)

/-- An observation is granted when and only when no live observation lists a probe of it. -/
theorem Exclusive.granted_iff {s : Observatory} (h : s.Exclusive) (c : Condition) :
    (∃ o, (c.observe s.world).1 = .ok o) ↔ ∀ p ∈ c.leaves, ∀ i, ¬ s.Lists i p := by
  rw [Condition.observe_isOk_iff]
  refine forall_congr' fun p => imp_congr_right fun _ => ?_
  rw [← Bool.not_eq_true, h.flag p, not_exists]

/-- **Observations are single-flight.**  After any operations, in any order: a probe is held when
and only when exactly one live observation lists it; no observation lists a probe twice, and no two
list the same one; an observation is granted when and only when its probes are apart from those of
all live ones; and once all observations are dropped, in whatever order, no probe is held. -/
theorem single_flight (ops : List Operation) :
    (∀ p, (run ops).world.inFlight p = true ↔
      ∃ i, (run ops).Lists i p ∧ ∀ j, (run ops).Lists j p → j = i) ∧
    (∀ (i : Nat) (o : Observation), (run ops).guards[i]? = some (some o) → (o.probes.map (·.id)).Nodup) ∧
    (∀ i j p, (run ops).Lists i p → (run ops).Lists j p → i = j) ∧
    (∀ c : Condition, (∃ o, (c.observe (run ops).world).1 = .ok o) ↔
      ∀ p ∈ c.leaves, ∀ i, ¬ (run ops).Lists i p) ∧
    ∀ order : List Nat, (∀ i, i < (run ops).guards.length → i ∈ order) →
      ∀ p, (order.foldl drop (run ops)).world.inFlight p = false := by
  have h := exclusive_run ops
  refine ⟨fun p => ?_, h.nodup, h.unique, h.granted_iff, fun order all p => ?_⟩
  · rw [h.flag p]
    constructor
    · rintro ⟨i, lists⟩
      exact ⟨i, lists, fun j other => h.unique j i p other lists⟩
    · rintro ⟨i, lists, -⟩
      exact ⟨i, lists⟩
  · rw [← Bool.not_eq_true, (exclusive_dropAll h order).flag p]
    rintro ⟨i, lists⟩
    obtain ⟨before, other⟩ := lists_dropAll.1 lists
    exact other (all i before.lt_length)

end Observatory
end PreconditionMining
