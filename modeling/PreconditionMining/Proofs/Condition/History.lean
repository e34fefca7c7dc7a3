/-
# What conditions remember

A condition holds no state, so what it says is decided by what was done to its
probes, through whichever handle.  The memory of a probe is a short one: each
trigger counts until an operation resets the probe (`standing`).  Resets come in
three ways: of the probe itself, of a condition that reads it, and by a granted
observation of such a condition; a refused one resets nothing.

One operation either resets a probe or adds its own triggers (`count_step`), so
after a history the count is the number of the triggers that still stand
(`count_foldl`).  A condition is then the Boolean expression that its tree spells
out (`Holds`), over the probes that have such a trigger: `never_stale`.
-/

import PreconditionMining.Proofs.Condition.Observatory

namespace PreconditionMining

namespace Condition

/-- **The Boolean expression of a condition:** a conjunction holds when all of its parts do, and a
disjunction when one of them does. -/
def Holds (on : Probe → Prop) : Condition → Prop
  | leaf p => on p
  | all c cs => Holds on c ∧ ∀ d, d ∈ cs → Holds on d
  | any c cs => Holds on c ∨ ∃ d, ∃ _ : d ∈ cs, Holds on d
  | negation c => ¬ Holds on c
  | labelled _ c => Holds on c

mutual

/-- Evaluation gives the truth value of the Boolean expression. -/
theorem eval_eq_true_iff {on : Probe → Bool} :
    ∀ c : Condition, c.eval on = true ↔ c.Holds (fun p => on p = true)
  | leaf p => by rw [eval, Holds]
  | all c cs => by
    rw [eval, Holds, Bool.and_eq_true, eval_eq_true_iff c, evalAll_eq_true_iff cs]
  | any c cs => by
    rw [eval, Holds, Bool.or_eq_true, eval_eq_true_iff c, evalAny_eq_true_iff cs]
  | negation c => by
    rw [eval, Holds, Bool.not_eq_true', ← eval_eq_true_iff c, Bool.not_eq_true]
  | labelled _ c => by rw [eval, Holds, eval_eq_true_iff c]

theorem evalAll_eq_true_iff {on : Probe → Bool} :
    ∀ cs : List Condition,
      evalAll on cs = true ↔ ∀ d, d ∈ cs → d.Holds (fun p => on p = true)
  | [] => by simp [evalAll]
  | c :: cs => by
    rw [evalAll, Bool.and_eq_true, eval_eq_true_iff c, evalAll_eq_true_iff cs]
    simp

theorem evalAny_eq_true_iff {on : Probe → Bool} :
    ∀ cs : List Condition,
      evalAny on cs = true ↔ ∃ d, ∃ _ : d ∈ cs, d.Holds (fun p => on p = true)
  | [] => by simp [evalAny]
  | c :: cs => by
    rw [evalAny, Bool.or_eq_true, eval_eq_true_iff c, evalAny_eq_true_iff cs]
    simp

end

end Condition

namespace Operation

/-- How often an operation triggers a probe.  The attempt to trigger a condition that is not a
single probe triggers nothing. -/
def triggersOf (p : Probe) : Operation → Nat
  | triggerProbe q times => if p.id = q.id then times else 0
  | trigger c =>
    match c.probe? with
    | some q => if p.id = q.id then 1 else 0
    | none => 0
  | resetProbe _ | reset _ | observe _ | drop _ => 0

/-- Whether an operation that is done in a state resets a probe.  An observation does so only when
it is granted. -/
def resets (p : Probe) (s : Observatory) : Operation → Bool
  | resetProbe q => p.id = q.id
  | reset c => p.id ∈ c.leaves.map (·.id)
  | observe c => (c.observe s.world).1.isOk && p.id ∈ c.leaves.map (·.id)
  | triggerProbe _ _ | trigger _ | drop _ => false

end Operation

namespace Observatory

/-- Whether one of several operations, done one after another from a state on, resets a probe. -/
def resetAmong (p : Probe) : Observatory → List Operation → Bool
  | _, [] => false
  | s, op :: ops => op.resets p s || resetAmong p (s.step op) ops

/-- **The triggers of a probe that still stand:** how often several operations, done one after
another from a state on, trigger it, not counting those that a later one of them resets. -/
def standing (p : Probe) : Observatory → List Operation → Nat
  | _, [] => 0
  | s, op :: ops =>
    (if resetAmong p (s.step op) ops then 0 else op.triggersOf p) + standing p (s.step op) ops

/-- A condition that is triggered adds the triggers of the operation to the counts. -/
theorem count_trigger (c : Condition) (w : World) (p : Probe) :
    (c.trigger w).2.count p = w.count p + (Operation.trigger c).triggersOf p := by
  rw [Condition.trigger, Operation.triggersOf]
  cases c.probe? with
  | some q =>
    show (w.trigger q 1).count p = w.count p + if p.id = q.id then 1 else 0
    rw [World.count_trigger]
    split <;> rfl
  | none => rfl

theorem count_observe (s : Observatory) (c : Condition) (p : Probe) :
    (s.observe c).world.count p =
      if (Operation.observe c).resets p s then 0 else s.world.count p := by
  rw [observe, Operation.resets]
  rcases answer : c.observe s.world with ⟨e | o, w⟩
  · exact Condition.count_observe_error answer p
  · rw [show Except.isOk (Except.ok o : Except ConditionError Observation) = true from rfl,
      Bool.true_and]
    simpa using Condition.count_observe_ok answer p

theorem count_drop (s : Observatory) (guard : Nat) (p : Probe) :
    (s.drop guard).world.count p = s.world.count p := by
  unfold drop
  split
  · next o here => exact World.count_freeAll o.probes s.world p
  · rfl

/-- **One operation resets a probe or adds its own triggers.** -/
theorem count_step (s : Observatory) (op : Operation) (p : Probe) :
    (s.step op).world.count p =
      (if op.resets p s then 0 else s.world.count p) + op.triggersOf p := by
  cases op with
  | triggerProbe q times =>
    rw [step, World.count_trigger, Operation.triggersOf, Operation.resets]
    split <;> rfl
  | trigger c => exact count_trigger c s.world p
  | resetProbe q =>
    rw [step, World.count_reset, Operation.triggersOf, Operation.resets]
    simp
  | reset c =>
    rw [step, Condition.reset, World.count_resetAll, Operation.triggersOf, Operation.resets]
    simp
  | observe c => exact count_observe s c p
  | drop guard => exact count_drop s guard p

/-- **A history adds the triggers that stand at its end** to the count before it, unless the
probe is reset in it. -/
theorem count_foldl (p : Probe) (ops : List Operation) (s : Observatory) :
    (ops.foldl step s).world.count p =
      (if resetAmong p s ops then 0 else s.world.count p) + standing p s ops := by
  induction ops generalizing s with
  | nil => rfl
  | cons op ops ih =>
    rw [List.foldl_cons, ih, resetAmong, standing, count_step]
    cases op.resets p s <;> cases resetAmong p (s.step op) ops <;> simp
    omega

/-- A trigger stands when some operation triggers the probe and no later one resets it. -/
theorem standing_pos_iff {p : Probe} {ops : List Operation} {s : Observatory} :
    0 < standing p s ops ↔
      ∃ earlier op later, ops = earlier ++ op :: later ∧ 0 < op.triggersOf p ∧
        resetAmong p ((earlier ++ [op]).foldl step s) later = false := by
  induction ops generalizing s with
  | nil => simp [standing]
  | cons op ops ih =>
    rw [standing, Nat.add_pos_iff_pos_or_pos, ih]
    constructor
    · rintro (here | ⟨earlier, op', later, rfl, triggers, unreset⟩)
      · cases reset : resetAmong p (s.step op) ops with
        | true => simp [reset] at here
        | false => exact ⟨[], op, ops, rfl, by simpa [reset] using here, reset⟩
      · exact ⟨op :: earlier, op', later, rfl, triggers, unreset⟩
    · rintro ⟨earlier, op', later, split, triggers, unreset⟩
      cases earlier with
      | nil =>
        obtain ⟨rfl, rfl⟩ := List.cons.inj split
        have unreset' : resetAmong p (s.step op) ops = false := unreset
        exact .inl (by simpa [unreset'] using triggers)
      | cons first earlier =>
        obtain ⟨rfl, rfl⟩ := List.cons.inj split
        exact .inr ⟨earlier, op', later, rfl, triggers, unreset⟩

/-- **Conditions are never stale.**  After any operations, on any conditions that share probes as
they like: the count of a probe is the number of its triggers that still stand, and there is one
when and only when some operation triggered the probe and no later one reset it; a condition is
true when and only when its Boolean expression holds of the probes that have one; a single probe
counts them, under any label, and any other condition counts 1 where it is true and 0 where not;
and the attempt to trigger such a condition fails and changes nothing. -/
theorem never_stale (ops : List Operation) :
    (∀ p, (run ops).world.count p = standing p initial ops) ∧
    (∀ p, 0 < standing p initial ops ↔
      ∃ earlier op later, ops = earlier ++ op :: later ∧ 0 < op.triggersOf p ∧
        resetAmong p (run (earlier ++ [op])) later = false) ∧
    (∀ c : Condition, c.triggered (run ops).world = true ↔
      c.Holds fun p => 0 < standing p initial ops) ∧
    (∀ (c : Condition) (p : Probe), c.probe? = some p →
      c.count (run ops).world = standing p initial ops) ∧
    ∀ c : Condition, c.probe? = none →
      c.count (run ops).world = (if c.triggered (run ops).world then 1 else 0) ∧
      (c.trigger (run ops).world).1 = .error (.invalidOperation c.description) ∧
      run (ops ++ [.trigger c]) = run ops := by
  have counts : ∀ p, (run ops).world.count p = standing p initial ops := by
    intro p
    have fresh : initial.world.count p = 0 := rfl
    rw [run, count_foldl, fresh]
    simp
  refine ⟨counts, fun p => standing_pos_iff, fun c => ?_, fun c p single => ?_,
    fun c composite => ⟨?_, ?_, ?_⟩⟩
  · rw [Condition.triggered, Condition.eval_eq_true_iff]
    simp only [World.triggered, counts, decide_eq_true_eq]
  · rw [Condition.count, single]
    exact counts p
  · rw [Condition.count, composite]
    cases c.triggered (run ops).world <;> rfl
  · rw [Condition.trigger, composite]
  · rw [run, List.foldl_append]
    show step (run ops) (.trigger c) = run ops
    rw [step, Condition.trigger, composite]

end Observatory

end PreconditionMining
