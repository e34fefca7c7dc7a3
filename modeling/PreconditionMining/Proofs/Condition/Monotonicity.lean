/-
# Conditions without a negation

A condition that is built from probes with conjunctions, disjunctions and descriptions, and
without a negation, is a monotone expression (`Affirmative.mono`): with more probes on it
stays true.  None of its junctions is empty, and so it says what its probes say when these
all say the same (`Affirmative.holds_const`).  An empty conjunction would be true of no
probe at all.

Between two resets a probe goes on and stays on, so such a condition is a latch: it starts
false and becomes true at most once, and its negation does the opposite (`latch_negation`).
`only_rises` says both, in every state and for probes that the parts share as they like.
-/

import PreconditionMining.Proofs.Condition.History

namespace PreconditionMining

/-- Whether an operation triggers a probe, or attempts to trigger a condition. -/
def Operation.isTrigger : Operation → Bool
  | triggerProbe _ _ | trigger _ => true
  | resetProbe _ | reset _ | observe _ | drop _ => false

namespace Observatory

/-- Triggers reset nothing. -/
theorem resetAmong_of_triggers {p : Probe} {ops : List Operation} (s : Observatory)
    (triggers : ∀ op ∈ ops, op.isTrigger = true) : resetAmong p s ops = false := by
  induction ops generalizing s with
  | nil => rfl
  | cons op ops ih =>
    obtain ⟨first, later⟩ := List.forall_mem_cons.1 triggers
    have keeps : op.resets p s = false := by
      cases op with
      | triggerProbe q times => rfl
      | trigger c => rfl
      | resetProbe _ | reset _ | observe _ | drop _ => cases first
    rw [resetAmong, keeps, ih (s.step op) later, Bool.or_false]

/-- A probe that is not reset stays on. -/
theorem triggered_foldl {p : Probe} {ops : List Operation} {s : Observatory}
    (unreset : resetAmong p s ops = false) (on : 0 < s.world.count p) :
    0 < (ops.foldl step s).world.count p := by
  rw [count_foldl, unreset]
  simp only [Bool.false_eq_true, if_false]
  omega

end Observatory

namespace Condition

/-- **The conditions that are built without a negation,** from probes with the constructors and
operators there are. -/
inductive Affirmative : Condition → Prop
  | leaf (p : Probe) : Affirmative (.leaf p)
  | all {cs : List Condition} {c : Condition} (parts : ∀ d ∈ cs, Affirmative d)
      (joined : allOf cs = .ok c) : Affirmative c
  | any {cs : List Condition} {c : Condition} (parts : ∀ d ∈ cs, Affirmative d)
      (joined : anyOf cs = .ok c) : Affirmative c
  | and {a b : Condition} (left : Affirmative a) (right : Affirmative b) : Affirmative (a &&& b)
  | or {a b : Condition} (left : Affirmative a) (right : Affirmative b) : Affirmative (a ||| b)
  | describe (description : String) {c : Condition} (body : Affirmative c) :
      Affirmative (.labelled description c)

theorem mem_leavesAll {p : Probe} {cs : List Condition} :
    p ∈ leavesAll cs ↔ ∃ c ∈ cs, p ∈ c.leaves := by
  induction cs with
  | nil => simp [leavesAll]
  | cons c cs ih =>
    rw [leavesAll, List.mem_append, ih]
    simp

namespace Affirmative

/-- Whatever they are built with, the junctions of conditions without a negation have a first
part. -/
@[elab_as_elim]
theorem parts_induction {motive : Condition → Prop} (leaf : ∀ p, motive (.leaf p))
    (all : ∀ c cs, (∀ d ∈ c :: cs, motive d) → motive (.all c cs))
    (any : ∀ c cs, (∀ d ∈ c :: cs, motive d) → motive (.any c cs))
    (labelled : ∀ d c, motive c → motive (.labelled d c)) {c : Condition}
    (h : c.Affirmative) : motive c := by
  have pair : ∀ {a b : Condition}, motive a → motive b → ∀ d ∈ [a, b], motive d := by
    intro a b left right
    simpa using ⟨left, right⟩
  -- A junction of no conditions is refused, so `nil` leaves nothing to prove.
  induction h with
  | leaf p => exact leaf p
  | @all cs _ _ joined ih =>
    cases cs with
    | nil => cases joined
    | cons c cs =>
      cases joined
      exact all c cs ih
  | @any cs _ _ joined ih =>
    cases cs with
    | nil => cases joined
    | cons c cs =>
      cases joined
      exact any c cs ih
  | and _ _ left right => exact all _ _ (pair left right)
  | or _ _ left right => exact any _ _ (pair left right)
  | describe d _ ih => exact labelled d _ ih

/-- **A condition without a negation stays true when more of its probes are on.** -/
theorem mono {c : Condition} (h : c.Affirmative) {on on' : Probe → Prop} :
    (∀ p ∈ c.leaves, on p → on' p) → c.Holds on → c.Holds on' := by
  refine h.parts_induction ?leaf ?all ?any ?labelled
  case leaf =>
    intro p grows
    rw [Holds, Holds]
    exact grows p (by rw [leaves]; exact List.mem_singleton_self p)
  case all =>
    intro c cs ih
    obtain ⟨ihFirst, ihRest⟩ := List.forall_mem_cons.1 ih
    intro grows
    rw [leaves, List.forall_mem_append] at grows
    rw [Holds, Holds]
    rintro ⟨first, rest⟩
    exact ⟨ihFirst grows.1 first, fun d hd =>
      ihRest d hd (fun p hp => grows.2 p (mem_leavesAll.2 ⟨d, hd, hp⟩)) (rest d hd)⟩
  case any =>
    intro c cs ih
    obtain ⟨ihFirst, ihRest⟩ := List.forall_mem_cons.1 ih
    intro grows
    rw [leaves, List.forall_mem_append] at grows
    rw [Holds, Holds]
    rintro (first | ⟨d, hd, holds⟩)
    · exact .inl (ihFirst grows.1 first)
    · exact .inr ⟨d, hd, ihRest d hd (fun p hp => grows.2 p (mem_leavesAll.2 ⟨d, hd, hp⟩)) holds⟩
  case labelled =>
    intro d c ih grows
    rw [leaves] at grows
    rw [Holds, Holds]
    exact ih grows

/-- **Where all probes say the same, a condition without a negation says it too.** -/
theorem holds_const {c : Condition} (h : c.Affirmative) (a : Prop) :
    c.Holds (fun _ => a) ↔ a := by
  refine h.parts_induction ?leaf ?all ?any ?labelled
  case leaf =>
    intro p
    rw [Holds]
  case all =>
    intro c cs ih
    obtain ⟨first, rest⟩ := List.forall_mem_cons.1 ih
    rw [Holds, first]
    exact ⟨And.left, fun ha => ⟨ha, fun d hd => (rest d hd).2 ha⟩⟩
  case any =>
    intro c cs ih
    obtain ⟨first, rest⟩ := List.forall_mem_cons.1 ih
    rw [Holds, first]
    exact ⟨fun holds => holds.elim id fun ⟨d, hd, holds⟩ => (rest d hd).1 holds, .inl⟩
  case labelled =>
    intro d c ih
    rw [Holds, ih]

/-- A condition without a negation is true by some probe of its own. -/
theorem exists_leaf {c : Condition} (h : c.Affirmative) {on : Probe → Prop} (holds : c.Holds on) :
    ∃ p ∈ c.leaves, on p :=
  (h.holds_const _).1 (h.mono (fun p mem here => ⟨p, mem, here⟩) holds)

end Affirmative

theorem triggered_eq_true_iff (c : Condition) (w : World) :
    c.triggered w = true ↔ c.Holds fun p => 0 < w.count p := by
  rw [triggered, eval_eq_true_iff]
  simp only [World.triggered, decide_eq_true_eq]

/-- A condition without a negation is false while its probes have no triggers. -/
theorem Affirmative.triggered_of_silent {c : Condition} (h : c.Affirmative) {w : World}
    (silent : ∀ p ∈ c.leaves, w.count p = 0) : c.triggered w = false := by
  rw [← Bool.not_eq_true, triggered_eq_true_iff]
  intro holds
  obtain ⟨p, mem, on⟩ := h.exists_leaf holds
  exact absurd (silent p mem) (Nat.ne_of_gt on)

/-- A condition without a negation stays true through operations that reset none of its probes:
further triggers, resets of other probes, refused observations and ended ones. -/
theorem Affirmative.triggered_foldl {c : Condition} (h : c.Affirmative) {s : Observatory}
    {ops : List Operation} (unreset : ∀ p ∈ c.leaves, Observatory.resetAmong p s ops = false)
    (on : c.triggered s.world = true) :
    c.triggered (ops.foldl Observatory.step s).world = true := by
  rw [triggered_eq_true_iff] at on ⊢
  exact h.mono (fun p mem => Observatory.triggered_foldl (unreset p mem)) on

/-- **A latch:** a condition that has one truth value after it is reset and after it is granted an
observation, whatever was before, and that no triggers bring back to this value once it has the
other one. -/
structure Latch (start : Bool) (c : Condition) : Prop where
  reset : ∀ s : Observatory, c.triggered (s.step (.reset c)).world = start
  observe : ∀ (s : Observatory) (o : Observation), (c.observe s.world).1 = .ok o →
    c.triggered (s.step (.observe c)).world = start ∧
      o.triggered (s.step (.observe c)).world = start
  settled : ∀ (s : Observatory) (ops : List Operation), (∀ op ∈ ops, op.isTrigger = true) →
    c.triggered s.world = !start → c.triggered (ops.foldl Observatory.step s).world = !start

/-- A condition that is reset has no triggers left to read. -/
theorem count_reset_step (c : Condition) (s : Observatory) {p : Probe} (mem : p ∈ c.leaves) :
    (s.step (.reset c)).world.count p = 0 := by
  rw [Observatory.count_step, Operation.resets, Operation.triggersOf]
  simp [List.mem_map_of_mem mem]

/-- A condition that is granted an observation has no triggers left to read. -/
theorem count_observe_step {c : Condition} {s : Observatory} {o : Observation}
    (granted : (c.observe s.world).1 = .ok o) {p : Probe} (mem : p ∈ c.leaves) :
    (s.step (.observe c)).world.count p = 0 := by
  rw [Observatory.count_step, Operation.resets, Operation.triggersOf, granted]
  simp [Except.isOk, Except.toBool, List.mem_map_of_mem mem]

/-- A latch starts with what its condition says of probes without triggers. -/
theorem Latch.of_silent {start : Bool} {c : Condition}
    (silent : ∀ w : World, (∀ p ∈ c.leaves, w.count p = 0) → c.triggered w = start)
    (settled : ∀ (s : Observatory) (ops : List Operation), (∀ op ∈ ops, op.isTrigger = true) →
      c.triggered s.world = !start → c.triggered (ops.foldl Observatory.step s).world = !start) :
    c.Latch start := by
  refine ⟨fun s => silent _ fun p mem => count_reset_step c s mem, fun s o granted => ?_, settled⟩
  have starts := silent _ fun p mem => count_observe_step granted mem
  obtain ⟨observed, -, -⟩ := observe_ok (Prod.ext granted rfl : c.observe s.world = (.ok o, _))
  refine ⟨starts, ?_⟩
  rw [observed]
  exact starts

theorem triggered_negation (c : Condition) (w : World) :
    (~~~c).triggered w = !c.triggered w := by
  show (Condition.negation c).triggered w = !c.triggered w
  rw [triggered, eval, triggered]

theorem leaves_negation (c : Condition) : (~~~c).leaves = c.leaves := by
  show (Condition.negation c).leaves = c.leaves
  rw [leaves]

namespace Affirmative

variable {c : Condition} (h : c.Affirmative)
include h

/-- A condition without a negation is a latch that starts false. -/
theorem latch : c.Latch false :=
  .of_silent (fun _ => h.triggered_of_silent) fun s _ triggers on =>
    h.triggered_foldl (fun _ _ => Observatory.resetAmong_of_triggers s triggers) on

/-- **The negation of a latch that starts false is one that starts true.** -/
theorem latch_negation : (~~~c).Latch true := by
  refine .of_silent (fun w silent => ?_) fun s ops triggers off => ?_
  · rw [leaves_negation] at silent
    rw [triggered_negation, h.triggered_of_silent silent, Bool.not_false]
  · rw [triggered_negation] at off ⊢
    rw [h.latch.settled s ops triggers (by simpa using off)]
    rfl

/-- **Conditions without a negation start false and only become true.**  Whatever such a condition
was before, it is false after its own reset and after it is granted an observation, and so is the
observation; no sequence of triggers brings it from true to false; the negation is true after its
own reset and after it is granted an observation, and no sequence of triggers brings it from false
to true; and no such condition is true of nothing: where it is true, one of its own probes was
triggered. -/
theorem only_rises :
    c.Latch false ∧ (~~~c).Latch true ∧
      ∀ w : World, c.triggered w = true → ∃ p ∈ c.leaves, w.triggered p = true := by
  refine ⟨h.latch, h.latch_negation, fun w on => ?_⟩
  obtain ⟨p, mem, triggered⟩ := h.exists_leaf ((triggered_eq_true_iff c w).1 on)
  exact ⟨p, mem, decide_eq_true triggered⟩

end Affirmative

/-- Two probes, the first of which stands on both sides of the conjunction. -/
def firstWithEither : Condition :=
  .labelled "first" (.leaf ⟨0, "p"⟩ &&& (.leaf ⟨0, "p"⟩ ||| .leaf ⟨1, "q"⟩))

/-- The shared probe makes the whole condition true, further triggers do not take that back, and a
reset does. -/
theorem firstWithEither_latches :
    firstWithEither.triggered (Observatory.run [.triggerProbe ⟨0, "p"⟩ 1]).world = true ∧
    firstWithEither.triggered
      (Observatory.run [.triggerProbe ⟨0, "p"⟩ 1, .triggerProbe ⟨1, "q"⟩ 2]).world = true ∧
    firstWithEither.triggered
      (Observatory.run [.triggerProbe ⟨0, "p"⟩ 1, .reset firstWithEither]).world = false := by
  have affirmative : firstWithEither.Affirmative :=
    .describe "first" (.and (.leaf _) (.or (.leaf _) (.leaf _)))
  obtain ⟨latch, -, -⟩ := affirmative.only_rises
  have on : firstWithEither.triggered
      (Observatory.run [.triggerProbe ⟨0, "p"⟩ 1]).world = true := by decide
  exact ⟨on, latch.settled (Observatory.run [.triggerProbe ⟨0, "p"⟩ 1])
    [.triggerProbe ⟨1, "q"⟩ 2] (by simp [Operation.isTrigger]) on,
    latch.reset (Observatory.run [.triggerProbe ⟨0, "p"⟩ 1])⟩

end Condition
end PreconditionMining
