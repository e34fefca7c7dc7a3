/-
# Observations

An observation holds the probes of a condition, so that nobody else observes
them meanwhile, and starts counting afresh.  The probes are claimed one after
another; where one is already held, those claimed so far are given back, and the
failure names the probe that was held.

`inFlight_claim_error` and `inFlight_claim_ok` say what claiming does to the
world: on failure nothing, on success exactly the claimed probes become held.
-/

import PreconditionMining.Condition.Basic

namespace PreconditionMining

/-- A live observation: the observed condition and the probes held for it. -/
structure Observation where
  condition : Condition
  probes : List Probe

namespace Observation

/-- Claims probes one after another, giving back what was claimed when one is already held. -/
def claim : List Probe → World → Except ConditionError Unit × World
  | [], w => (.ok (), w)
  | p :: ps, w =>
    if w.inFlight p then (.error (.observationInFlight p.description), w)
    else
      match claim ps (w.hold p) with
      | (.ok (), w') => (.ok (), w')
      | (.error e, w') => (.error e, w'.free p)

/-- Ends an observation: its probes are held no longer. -/
def release (o : Observation) (w : World) : World := w.freeAll o.probes

/-- Whether the observed condition is true of the triggers counted so far. -/
def triggered (o : Observation) (w : World) : Bool := o.condition.triggered w

/-- The count of the observed condition. -/
def count (o : Observation) (w : World) : Nat := o.condition.count w

/-- Claiming changes no count. -/
theorem count_claim (q : Probe) :
    ∀ (ps : List Probe) (w : World), (claim ps w).2.count q = w.count q
  | [], _ => rfl
  | p :: ps, w => by
    unfold claim
    split
    · rfl
    · have ih := count_claim q ps (w.hold p)
      split <;> next heq => simp_all

/-- A failed claim leaves no probe held that was free, and none free that was held. -/
theorem inFlight_claim_error (q : Probe) (e : ConditionError) :
    ∀ (ps : List Probe) (w : World), (claim ps w).1 = .error e →
      (claim ps w).2.inFlight q = w.inFlight q
  | [], _, h => by simp [claim] at h
  | p :: ps, w, h => by
    unfold claim at h ⊢
    split at h
    · next held => simp [held]
    · next unheld =>
      split at h
      · simp at h
      · next e' w' heq =>
        have ih := inFlight_claim_error q e' ps (w.hold p) (by rw [heq])
        rw [heq] at ih
        simp only [World.inFlight_hold] at ih
        by_cases same : q.id = p.id
        · have : w.inFlight q = w.inFlight p := by simp [World.inFlight, World.cell, same]
          simp [same, this, unheld]
        · simpa [same, unheld] using ih

/-- A successful claim makes exactly the claimed probes held. -/
theorem inFlight_claim_ok (q : Probe) :
    ∀ (ps : List Probe) (w : World), (claim ps w).1 = .ok () →
      (claim ps w).2.inFlight q = (w.inFlight q || decide (q.id ∈ ps.map (·.id)))
  | [], _, _ => by simp [claim]
  | p :: ps, w, h => by
    unfold claim at h ⊢
    split at h
    · simp at h
    · next unheld =>
      split at h
      · next w' heq =>
        have ih := inFlight_claim_ok q ps (w.hold p) (by rw [heq])
        rw [heq] at ih
        simp only [World.inFlight_hold] at ih
        by_cases same : q.id = p.id <;> simpa [same, unheld] using ih
      · simp at h

/-- Holding a probe says nothing about probes with other numbers. -/
theorem inFlight_hold_of_notMem {p : Probe} {ps : List Probe} (fresh : p.id ∉ ps.map (·.id))
    (w : World) : ∀ q ∈ ps, (w.hold p).inFlight q = w.inFlight q := by
  intro q hq
  have apart : q.id ≠ p.id := fun same => fresh (List.mem_map.2 ⟨q, hq, same⟩)
  simp [apart]

/-- A claim of distinct probes succeeds when and only when none of them is held. -/
theorem claim_ok_iff :
    ∀ (ps : List Probe) (w : World), (ps.map (·.id)).Nodup →
      ((claim ps w).1 = .ok () ↔ ∀ p ∈ ps, w.inFlight p = false)
  | [], w, _ => by simp [claim]
  | p :: ps, w, h => by
    obtain ⟨fresh, nodup⟩ := List.nodup_cons.1 h
    have ih := claim_ok_iff ps (w.hold p) nodup
    have others := inFlight_hold_of_notMem fresh w
    unfold claim
    by_cases held : w.inFlight p = true
    · simp [held]
    · have unheld : w.inFlight p = false := by simpa using held
      simp only [unheld, Bool.false_eq_true, if_false, List.mem_cons, forall_eq_or_imp,
        true_and]
      have rest : (∀ q ∈ ps, (w.hold p).inFlight q = false) ↔ ∀ q ∈ ps, w.inFlight q = false :=
        forall_congr' fun q => imp_congr_right fun hq => by rw [others q hq]
      rw [← rest, ← ih]
      split <;> next heq => simp [heq]

/-- The answer to a claim depends on which probes are held, and on nothing else. -/
theorem claim_fst_congr :
    ∀ (ps : List Probe) {v w : World}, (∀ q, v.inFlight q = w.inFlight q) →
      (claim ps v).1 = (claim ps w).1
  | [], _, _, _ => rfl
  | p :: ps, v, w, h => by
    have ih := claim_fst_congr ps (v := v.hold p) (w := w.hold p) fun q => by simp [h q]
    unfold claim
    rw [h p]
    split
    · rfl
    · split <;> split <;> simp_all

end Observation

namespace Condition

/-- Begins an observation: claims the probes of the condition and forgets their triggers. -/
def observe (c : Condition) (w : World) : Except ConditionError Observation × World :=
  match Observation.claim c.probes w with
  | (.ok (), w') => (.ok ⟨c, c.probes⟩, c.reset w')
  | (.error e, w') => (.error e, w')

/-- A refused observation leaves the holding of probes as it was. -/
theorem inFlight_observe_error {c : Condition} {w w' : World} {e : ConditionError}
    (h : c.observe w = (.error e, w')) (q : Probe) : w'.inFlight q = w.inFlight q := by
  unfold observe at h
  split at h
  · simp at h
  · next e' w'' claimed =>
    obtain ⟨-, rfl⟩ := Prod.mk.inj h
    have := Observation.inFlight_claim_error q e' c.probes w (by rw [claimed])
    rwa [claimed] at this

/-- A granted observation holds the probes of its condition, and they were free. -/
theorem observe_ok {c : Condition} {w w' : World} {o : Observation}
    (h : c.observe w = (.ok o, w')) :
    o = ⟨c, c.probes⟩ ∧ (∀ p ∈ c.probes, w.inFlight p = false) ∧
      ∀ q, w'.inFlight q = (w.inFlight q || decide (q.id ∈ c.probes.map (·.id))) := by
  unfold observe at h
  split at h
  · next w'' claimed =>
    obtain ⟨ho, rfl⟩ := Prod.mk.inj h
    refine ⟨(Except.ok.inj ho).symm, ?_, fun q => ?_⟩
    · exact (Observation.claim_ok_iff _ w (nodup_ids_distinct c.leaves)).1
        (by rw [← probes, claimed])
    · have := Observation.inFlight_claim_ok q c.probes w (by rw [claimed])
      rw [claimed] at this
      simpa [reset] using this
  · simp at h

/-- A granted observation holds the probes at the leaves. -/
theorem inFlight_observe_leaf {c : Condition} {w w' : World} {o : Observation}
    (h : c.observe w = (.ok o, w')) : ∀ p ∈ c.leaves, w'.inFlight p = true := by
  intro p hp
  rw [(observe_ok h).2.2 p, decide_eq_true ((mem_ids_probes c).2 (List.mem_map.2 ⟨p, hp, rfl⟩)),
    Bool.or_true]

/-- When a granted observation ends, the probes are held that were held before it began. -/
theorem inFlight_release {c : Condition} {w w' w'' : World} {o : Observation}
    (h : c.observe w = (.ok o, w')) (same : ∀ q, w''.inFlight q = w'.inFlight q) (q : Probe) :
    (o.release w'').inFlight q = w.inFlight q := by
  obtain ⟨rfl, free, held⟩ := observe_ok h
  simp only [Observation.release, World.inFlight_freeAll, same q, held q]
  split
  · next mine =>
    obtain ⟨p, hp, eq⟩ := List.mem_map.1 mine
    rw [← World.inFlight_of_id eq, free p hp]
  · next other => simp [other]

/-- A refused observation changes no count. -/
theorem count_observe_error {c : Condition} {w w' : World} {e : ConditionError}
    (h : c.observe w = (.error e, w')) (q : Probe) : w'.count q = w.count q := by
  unfold observe at h
  split at h
  · simp at h
  · next e' w'' claimed =>
    obtain ⟨-, rfl⟩ := Prod.mk.inj h
    have := Observation.count_claim q c.probes w
    rwa [claimed] at this

/-- A granted observation forgets the triggers of the probes at the leaves and no others. -/
theorem count_observe_ok {c : Condition} {w w' : World} {o : Observation}
    (h : c.observe w = (.ok o, w')) (q : Probe) :
    w'.count q = if q.id ∈ c.leaves.map (·.id) then 0 else w.count q := by
  unfold observe at h
  split at h
  · next w'' claimed =>
    obtain ⟨-, rfl⟩ := Prod.mk.inj h
    have := Observation.count_claim q c.probes w
    rw [claimed] at this
    rw [reset, World.count_resetAll, this]
  · simp at h

/-- **An observation is granted when and only when no probe at a leaf is held.** -/
theorem observe_isOk_iff (c : Condition) (w : World) :
    (∃ o, (c.observe w).1 = .ok o) ↔ ∀ p ∈ c.leaves, w.inFlight p = false := by
  have ids : ∀ ps : List Probe, (∀ p ∈ ps, w.inFlight p = false) ↔
      ∀ n ∈ ps.map (·.id), w.inFlight ⟨n, ""⟩ = false := by
    intro ps
    rw [List.forall_mem_map]
    exact Iff.rfl
  have free : (∀ p ∈ c.probes, w.inFlight p = false) ↔ ∀ p ∈ c.leaves, w.inFlight p = false := by
    rw [ids, ids]
    exact forall_congr' fun n => by rw [mem_ids_probes]
  have claimed := Observation.claim_ok_iff c.probes w (nodup_ids_distinct c.leaves)
  rw [← free, ← claimed]
  unfold observe
  split <;> next h => simp [h]

/-- An observation is refused when and only when a probe at a leaf is held. -/
theorem observe_isError_iff (c : Condition) (w : World) :
    (∃ e, (c.observe w).1 = .error e) ↔ ∃ p ∈ c.leaves, w.inFlight p = true := by
  have granted := observe_isOk_iff c w
  cases h : (c.observe w).1 <;> simpa [h] using granted

/-- What is granted depends on which probes are held, and on nothing else. -/
theorem observe_fst_congr (c : Condition) {v w : World} (h : ∀ q, v.inFlight q = w.inFlight q) :
    (c.observe v).1 = (c.observe w).1 := by
  have claims := Observation.claim_fst_congr c.probes h
  unfold observe
  split <;> split <;> simp_all

/-- Which probes an observation leaves held depends on which were held, and on nothing else. -/
theorem inFlight_observe_congr (c : Condition) {v w : World}
    (h : ∀ q, v.inFlight q = w.inFlight q) (q : Probe) :
    (c.observe v).2.inFlight q = (c.observe w).2.inFlight q := by
  have answers := observe_fst_congr c h
  rcases atV : c.observe v with ⟨e | o, v'⟩
  all_goals
    rcases atW : c.observe w with ⟨answer, w'⟩
    rw [atV, atW] at answers
    obtain rfl := answers
  · exact (inFlight_observe_error atV q).trans ((h q).trans (inFlight_observe_error atW q).symm)
  · rw [(observe_ok atV).2.2 q, (observe_ok atW).2.2 q, h q]

end Condition

end PreconditionMining
