/-
# Conditions

A condition is a Boolean reading of probes: a single probe, a conjunction or a
disjunction of conditions, a negation, or a condition under a description of its
own.  A conjunction or disjunction has at least one part by its type, so no
condition is vacuously true and each one reaches a probe (`leaves_ne_nil`).

Conditions hold no state.  `eval` is their meaning under any reading of the
probes, and what a world says about a condition is `eval` at the world's reading.
Only a probe can be triggered, so `trigger` refuses every condition that is not
a single probe.
-/

import PreconditionMining.World

namespace PreconditionMining

/-- The two ways of joining conditions. -/
inductive Junction
  | conjunction
  | disjunction
deriving DecidableEq

/-- The word that joins the descriptions of the parts. -/
def Junction.word : Junction → String
  | .conjunction => "and"
  | .disjunction => "or"

/-- Why an operation on conditions fails. -/
inductive ConditionError
  /-- Only a condition that is a single probe can be triggered. -/
  | invalidOperation (description : String)
  /-- A conjunction or disjunction was asked of no conditions. -/
  | emptyComposite (junction : Junction)
  /-- A probe of the condition is held by an observation. -/
  | observationInFlight (description : String)
deriving DecidableEq

/-- The name of a failure. -/
def ConditionError.name : ConditionError → String
  | .invalidOperation _ => "InvalidOperation"
  | .emptyComposite _ => "EmptyComposite"
  | .observationInFlight _ => "ObservationInFlight"

/-- The text of a failure. -/
def ConditionError.message : ConditionError → String
  | .invalidOperation d =>
    "Cannot trigger derived condition '" ++ d ++ "': only leaf conditions can be triggered"
  | .emptyComposite j => "A " ++ j.word ++ " condition needs at least one sub-condition"
  | .observationInFlight d => "Condition '" ++ d ++ "' is already being observed"

/-- A Boolean reading of probes. -/
inductive Condition
  | leaf (probe : Probe)
  | all (first : Condition) (rest : List Condition)
  | any (first : Condition) (rest : List Condition)
  | negation (body : Condition)
  | labelled (description : String) (body : Condition)
deriving Inhabited

namespace Condition

/-- The conjunction of a list of conditions, which must not be empty. -/
def allOf : List Condition → Except ConditionError Condition
  | [] => .error (.emptyComposite .conjunction)
  | c :: cs => .ok (.all c cs)

/-- The disjunction of a list of conditions, which must not be empty. -/
def anyOf : List Condition → Except ConditionError Condition
  | [] => .error (.emptyComposite .disjunction)
  | c :: cs => .ok (.any c cs)

instance : AndOp Condition := ⟨fun a b => .all a [b]⟩
instance : OrOp Condition := ⟨fun a b => .any a [b]⟩
instance : Complement Condition := ⟨.negation⟩

mutual

/-- The description: that of the probe, the label, or one made from the parts. -/
def description : Condition → String
  | leaf p => p.description
  | all c cs => String.intercalate " and " (description c :: descriptions cs)
  | any c cs => String.intercalate " or " (description c :: descriptions cs)
  | negation c => "Not (" ++ description c ++ ")"
  | labelled d _ => d

/-- The descriptions of a list of conditions. -/
def descriptions : List Condition → List String
  | [] => []
  | c :: cs => description c :: descriptions cs

end

mutual

/-- The probes at the leaves, from left to right and with repetitions. -/
def leaves : Condition → List Probe
  | leaf p => [p]
  | all c cs => leaves c ++ leavesAll cs
  | any c cs => leaves c ++ leavesAll cs
  | negation c => leaves c
  | labelled _ c => leaves c

/-- The probes at the leaves of a list of conditions. -/
def leavesAll : List Condition → List Probe
  | [] => []
  | c :: cs => leaves c ++ leavesAll cs

end

mutual

/-- The truth value under a reading of the probes. -/
def eval (on : Probe → Bool) : Condition → Bool
  | leaf p => on p
  | all c cs => eval on c && evalAll on cs
  | any c cs => eval on c || evalAny on cs
  | negation c => !eval on c
  | labelled _ c => eval on c

/-- Whether all conditions of a list are true. -/
def evalAll (on : Probe → Bool) : List Condition → Bool
  | [] => true
  | c :: cs => eval on c && evalAll on cs

/-- Whether some condition of a list is true. -/
def evalAny (on : Probe → Bool) : List Condition → Bool
  | [] => false
  | c :: cs => eval on c || evalAny on cs

end

/-- The probe of a condition that is a single probe, under any labels. -/
def probe? : Condition → Option Probe
  | leaf p => some p
  | labelled _ c => probe? c
  | _ => none

/-- Whether a condition is a single probe. -/
def isLeaf (c : Condition) : Bool := c.probe?.isSome

/-- Keeps the first of the probes with one number. -/
def distinct : List Probe → List Probe
  | [] => []
  | p :: ps => p :: (distinct ps).filter (fun q => q.id ≠ p.id)

/-- The probes that a condition reads, each once, in the order in which they are first met. -/
def probes (c : Condition) : List Probe := distinct c.leaves

/-- Whether a condition is true of the triggers counted so far. -/
def triggered (c : Condition) (w : World) : Bool := c.eval w.triggered

/-- The triggers of a single probe; of any other condition 1 where it is true and 0 where not. -/
def count (c : Condition) (w : World) : Nat :=
  match c.probe? with
  | some p => w.count p
  | none => (c.triggered w).toNat

/-- Triggers a condition that is a single probe. -/
def trigger (c : Condition) (w : World) : Except ConditionError Unit × World :=
  match c.probe? with
  | some p => (.ok (), w.trigger p 1)
  | none => (.error (.invalidOperation c.description), w)

/-- Forgets the triggers of all probes that a condition reads. -/
def reset (c : Condition) (w : World) : World := w.resetAll c.leaves

/-- **Each condition reads a probe.** -/
theorem leaves_ne_nil : ∀ c : Condition, c.leaves ≠ []
  | leaf p => by simp [leaves]
  | all c cs => by simp [leaves, leaves_ne_nil c]
  | any c cs => by simp [leaves, leaves_ne_nil c]
  | negation c => by simpa [leaves] using leaves_ne_nil c
  | labelled _ c => by simpa [leaves] using leaves_ne_nil c

mutual

/-- The truth value depends on the reading of the probes at the leaves only. -/
theorem eval_congr {on on' : Probe → Bool} :
    ∀ c : Condition, (∀ p ∈ c.leaves, on p = on' p) → c.eval on = c.eval on'
  | leaf p, h => h p (by simp [leaves])
  | all c cs, h => by
    simp only [leaves, List.mem_append] at h
    rw [eval, eval, eval_congr c fun p hp => h p (.inl hp), evalAll_congr cs fun p hp => h p (.inr hp)]
  | any c cs, h => by
    simp only [leaves, List.mem_append] at h
    rw [eval, eval, eval_congr c fun p hp => h p (.inl hp), evalAny_congr cs fun p hp => h p (.inr hp)]
  | negation c, h => by rw [eval, eval, eval_congr c (by simpa [leaves] using h)]
  | labelled _ c, h => by rw [eval, eval, eval_congr c (by simpa [leaves] using h)]

theorem evalAll_congr {on on' : Probe → Bool} :
    ∀ cs : List Condition, (∀ p ∈ leavesAll cs, on p = on' p) → evalAll on cs = evalAll on' cs
  | [], _ => rfl
  | c :: cs, h => by
    simp only [leavesAll, List.mem_append] at h
    rw [evalAll, evalAll, eval_congr c fun p hp => h p (.inl hp),
      evalAll_congr cs fun p hp => h p (.inr hp)]

theorem evalAny_congr {on on' : Probe → Bool} :
    ∀ cs : List Condition, (∀ p ∈ leavesAll cs, on p = on' p) → evalAny on cs = evalAny on' cs
  | [], _ => rfl
  | c :: cs, h => by
    simp only [leavesAll, List.mem_append] at h
    rw [evalAny, evalAny, eval_congr c fun p hp => h p (.inl hp),
      evalAny_congr cs fun p hp => h p (.inr hp)]

end

theorem mem_ids_distinct {n : Nat} :
    ∀ ps : List Probe, n ∈ (distinct ps).map (·.id) ↔ n ∈ ps.map (·.id)
  | [] => by simp [distinct]
  | p :: ps => by
    have ih := mem_ids_distinct (n := n) ps
    simp only [List.mem_map] at ih
    by_cases same : n = p.id
    · simp [distinct, same]
    · simp only [distinct, List.map_cons, List.mem_cons, same, false_or, List.mem_map,
        List.mem_filter, decide_eq_true_eq]
      rw [← ih]
      constructor
      · rintro ⟨q, ⟨hq, _⟩, rfl⟩
        exact ⟨q, hq, rfl⟩
      · rintro ⟨q, hq, rfl⟩
        exact ⟨q, ⟨hq, same⟩, rfl⟩

/-- No two of the kept probes have one number. -/
theorem nodup_ids_distinct : ∀ ps : List Probe, ((distinct ps).map (·.id)).Nodup
  | [] => by simp [distinct]
  | p :: ps => by
    have ih := nodup_ids_distinct ps
    refine List.nodup_cons.2 ⟨?_, ?_⟩
    · simp
    · exact ih.sublist (List.Sublist.map _ List.filter_sublist)

/-- The probes of a condition are those at its leaves. -/
theorem mem_ids_probes {n : Nat} (c : Condition) :
    n ∈ c.probes.map (·.id) ↔ n ∈ c.leaves.map (·.id) := mem_ids_distinct c.leaves

theorem probes_ne_nil (c : Condition) : c.probes ≠ [] := by
  unfold probes
  cases h : c.leaves with
  | nil => exact absurd h c.leaves_ne_nil
  | cons p ps => simp [distinct]

end Condition

end PreconditionMining
