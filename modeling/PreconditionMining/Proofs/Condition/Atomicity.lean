/-
# Observations are all or nothing

An observation claims the probes of its condition one after another, each of them once, in
the order in which the leaves meet them for the first time (`FirstMet`).  So a condition
that has a leaf twice does not stand in its own way, and the probe at which claiming is
stopped is the first leaf that is held (`find?_distinct`, `Observation.claim_eq_error_iff`).

What was claimed before that is given back, and the triggers are forgotten only after the
last claim.  So nobody can tell a refused observation from none:
`observe_all_or_nothing`.
-/

import Mathlib.Data.List.Basic
import Mathlib.Data.List.Find
import PreconditionMining.Condition.Observation

namespace PreconditionMining

namespace Condition

/-- **Probes in the order in which they are first met:** of the leaves with one number there is
the first, and who is met earlier stands earlier. -/
structure FirstMet (leaves probes : List Probe) : Prop where
  mem_iff : ∀ p, p ∈ probes ↔ leaves.find? (fun q => q.id = p.id) = some p
  ordered : probes.Pairwise fun p q =>
    (leaves.map (·.id)).idxOf p.id < (leaves.map (·.id)).idxOf q.id

theorem mem_distinct_iff {p : Probe} :
    ∀ {ps : List Probe}, p ∈ distinct ps ↔ ps.find? (fun q => q.id = p.id) = some p
  | [] => by simp [distinct]
  | q :: ps => by
    have ih : p ∈ distinct ps ↔ ps.find? (fun r => r.id = p.id) = some p := mem_distinct_iff
    rw [distinct, List.mem_cons, List.mem_filter, List.find?_cons]
    by_cases same : q.id = p.id
    · simp [same, eq_comm]
    · have other : p ≠ q := fun eq => same (eq ▸ rfl)
      simp [same, other, Ne.symm same, ih]

theorem pairwise_distinct :
    ∀ ps : List Probe, (distinct ps).Pairwise fun p q =>
      (ps.map (·.id)).idxOf p.id < (ps.map (·.id)).idxOf q.id
  | [] => .nil
  | p :: ps => by
    have apart : ∀ q ∈ (distinct ps).filter (fun q => q.id ≠ p.id), p.id ≠ q.id := by
      intro q mem
      exact Ne.symm (of_decide_eq_true (List.mem_filter.1 mem).2)
    rw [distinct, List.map_cons]
    refine List.pairwise_cons.2 ⟨fun q hq => ?_, ?_⟩
    · rw [List.idxOf_cons_self, List.idxOf_cons_ne _ (apart q hq)]
      exact Nat.succ_pos _
    · refine ((pairwise_distinct ps).filter _).imp_of_mem fun hq hr earlier => ?_
      rw [List.idxOf_cons_ne _ (apart _ hq), List.idxOf_cons_ne _ (apart _ hr)]
      exact Nat.succ_lt_succ earlier

/-- **The probes of a condition are its leaves as they are first met.** -/
theorem firstMet_probes (c : Condition) : FirstMet c.leaves c.probes :=
  ⟨fun _ => mem_distinct_iff, pairwise_distinct c.leaves⟩

/-- Of several probes the first that has a property is found without the repetitions too, if
the number tells who has the property. -/
theorem find?_distinct {held : Probe → Bool} (byId : ∀ p q : Probe, p.id = q.id → held p = held q) :
    ∀ ps : List Probe, (distinct ps).find? held = ps.find? held
  | [] => rfl
  | p :: ps => by
    rw [distinct, List.find?_cons, List.find?_cons]
    cases here : held p with
    | true => rfl
    | false =>
      rw [List.find?_filter, ← find?_distinct byId ps]
      refine List.find?_congr fun q _ => ?_
      by_cases same : q.id = p.id
      · simp [same, byId q p same, here]
      · simp [same]

end Condition

/-- **A claim of distinct probes is stopped by the first of them that is held.** -/
theorem Observation.claim_eq_error_iff {e : ConditionError} :
    ∀ (ps : List Probe) (w : World), (ps.map (·.id)).Nodup →
      ((claim ps w).1 = .error e ↔
        ∃ p, ps.find? w.inFlight = some p ∧ e = .observationInFlight p.description)
  | [], w, _ => by simp [claim]
  | p :: ps, w, h => by
    obtain ⟨fresh, nodup⟩ := List.nodup_cons.1 h
    have ih := claim_eq_error_iff (e := e) ps (w.hold p) nodup
    have others : ps.find? (w.hold p).inFlight = ps.find? w.inFlight :=
      List.find?_congr (inFlight_hold_of_notMem fresh w)
    unfold claim
    rw [List.find?_cons]
    cases held : w.inFlight p with
    | true => simp [eq_comm]
    | false =>
      rw [others] at ih
      simp only [Bool.false_eq_true, if_false]
      rw [← ih]
      split <;> next answer => simp [answer]

namespace Condition

/-- **A refused observation names the first leaf that is held.** -/
theorem observe_eq_error_iff (c : Condition) (w : World) (e : ConditionError) :
    (c.observe w).1 = .error e ↔
      ∃ p, c.leaves.find? w.inFlight = some p ∧ e = .observationInFlight p.description := by
  rw [← find?_distinct (fun _ _ => World.inFlight_of_id) c.leaves, ← probes,
    ← Observation.claim_eq_error_iff c.probes w (nodup_ids_distinct c.leaves)]
  unfold observe
  split <;> next answer => simp [answer]

/-- **An observation is all or nothing.**  In every state and for every condition, however its
leaves repeat: the probes of the condition are its leaves as they are first met; the observation is
refused when and only when one of them is held, by the name of the first that is; a refused one
leaves each count and each flag as they were, of probes of the condition and of others; and a
granted one holds the probes of the condition, which count from 0, and leaves all others as they
were. -/
theorem observe_all_or_nothing (c : Condition) (w : World) :
    FirstMet c.leaves c.probes ∧
    ((∃ e, (c.observe w).1 = .error e) ↔ ∃ p ∈ c.leaves, w.inFlight p = true) ∧
    (∀ e, (c.observe w).1 = .error e ↔
      ∃ p, c.leaves.find? w.inFlight = some p ∧ e = .observationInFlight p.description) ∧
    (∀ e w', c.observe w = (.error e, w') →
      ∀ q, w'.count q = w.count q ∧ w'.inFlight q = w.inFlight q) ∧
    ∀ o w', c.observe w = (.ok o, w') → o = ⟨c, c.probes⟩ ∧
      ∀ q, (q.id ∈ c.leaves.map (·.id) → w'.count q = 0 ∧ w'.inFlight q = true) ∧
        (q.id ∉ c.leaves.map (·.id) → w'.count q = w.count q ∧ w'.inFlight q = w.inFlight q) := by
  refine ⟨firstMet_probes c, observe_isError_iff c w, observe_eq_error_iff c w,
    fun e w' refused q => ?_, fun o w' granted => ?_⟩
  · exact ⟨count_observe_error refused q, inFlight_observe_error refused q⟩
  · obtain ⟨observation, -, flags⟩ := observe_ok granted
    refine ⟨observation, fun q => ?_⟩
    have count := count_observe_ok granted q
    have flag := flags q
    simp only [mem_ids_probes] at flag
    refine ⟨fun mine => ?_, fun other => ?_⟩
    · rw [if_pos mine] at count
      rw [decide_eq_true mine, Bool.or_true] at flag
      exact ⟨count, flag⟩
    · rw [if_neg other] at count
      rw [decide_eq_false other, Bool.or_false] at flag
      exact ⟨count, flag⟩

/-- A leaf that stands twice is claimed once. -/
example : ((.leaf ⟨0, "p"⟩ : Condition) &&& .leaf ⟨0, "p"⟩).probes = [⟨0, "p"⟩] := by decide

end Condition

end PreconditionMining
