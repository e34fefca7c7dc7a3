/-
# Classification

To classify an input, a test observes its condition, runs its body on the input
and reads the condition.  The body may classify other tests, and these further
ones, without any bound that the tests themselves set.  What bounds the nesting
are the probes: each running classification holds at least one probe that no
other one holds, so `classifyWithin` needs no more levels than there are probes
(`classifyWithin_isSome`), and `classify` gives it that many.

`inFlight_classify` says that a classification, whatever is nested in it,
leaves held exactly the probes that were held before.
-/

import PreconditionMining.Testing.Script

namespace PreconditionMining

/-- What a classification leaves behind: its verdict, the world, and the deeds of
the body and of the bodies nested in it, a nested classification after its own deeds. -/
structure Outcome where
  verdict : Except ConditionError Bool
  world : World
  deeds : List Deed

namespace Script

/-- Follows a script, where `call` classifies an input by a test.  A call of a test
that the register does not have ends the script. -/
def run (call : ObservedTest → String → World → Option Outcome) (register : List ObservedTest) :
    Script → World → Option (World × List Deed)
  | .done, w => some (w, [])
  | .trigger p times next, w =>
    (run call register next (w.trigger p times)).map fun (w', deeds) =>
      (w', .triggered p times :: deeds)
  | .classify t input next, w =>
    match register[t]? with
    | none => some (w, [])
    | some test =>
      match call test input w with
      | none => none
      | some inner =>
        (run call register (next inner.verdict) inner.world).map fun (w', deeds) =>
          (w', inner.deeds ++ .classified t inner.verdict :: deeds)

end Script

namespace ObservedTest

/-- Classifies an input with at most a given number of classifications running at
once; without an answer when that is not enough. -/
def classifyWithin (register : List ObservedTest) :
    Nat → ObservedTest → String → World → Option Outcome
  | 0, _, _, _ => none
  | level + 1, t, input, w =>
    match t.condition.observe w with
    | (.error e, w') => some ⟨.error e, w', []⟩
    | (.ok o, w') =>
      ((t.body input).run (classifyWithin register level) register w').map fun (w'', deeds) =>
        ⟨.ok (o.triggered w''), o.release w'', deeds⟩

/-- The numbers of the probes that the conditions of some tests read, each once. -/
def probeIds (tests : List ObservedTest) : List Nat :=
  (tests.flatMap fun t => t.condition.probes.map (·.id)).eraseDups

theorem mem_probeIds {tests : List ObservedTest} {t : ObservedTest} {p : Probe} (ht : t ∈ tests)
    (hp : p ∈ t.condition.probes) : p.id ∈ probeIds tests := by
  simp only [probeIds, List.mem_eraseDups, List.mem_flatMap]
  exact ⟨t, ht, List.mem_map.2 ⟨p, hp, rfl⟩⟩

/-- How many of the listed probes are not held. -/
def freeCount (ids : List Nat) (w : World) : Nat :=
  ids.countP fun n => !w.inFlight ⟨n, ""⟩

/-- Holding one more of the listed probes, and freeing none, leaves fewer of them free. -/
theorem freeCount_lt {w w' : World} {p : Probe} {ids : List Nat} (mem : p.id ∈ ids)
    (free : w.inFlight p = false) (held : w'.inFlight p = true)
    (keeps : ∀ q, w.inFlight q = true → w'.inFlight q = true) :
    freeCount ids w' < freeCount ids w := by
  have le : ∀ l : List Nat, freeCount l w' ≤ freeCount l w := fun l =>
    List.countP_mono_left fun n _ h => by
      cases hw : w.inFlight ⟨n, ""⟩ with
      | false => rfl
      | true => simp [keeps _ hw] at h
  induction ids with
  | nil => simp at mem
  | cons n ids ih =>
    by_cases here : p.id = n
    · have before : w.inFlight ⟨n, ""⟩ = false := by rw [← free]; exact World.inFlight_of_id here.symm
      have after : w'.inFlight ⟨n, ""⟩ = true := by rw [← held]; exact World.inFlight_of_id here.symm
      have := le ids
      simp only [freeCount, List.countP_cons, before, after] at this ⊢
      simp; omega
    · have later := ih ((List.mem_cons.1 mem).resolve_left here)
      have first := le [n]
      simp only [freeCount, List.countP_cons, List.countP_nil] at later first ⊢
      omega

/-- A granted observation leaves fewer of the probes free among which its own are. -/
theorem freeCount_observe {c : Condition} {w w' : World} {o : Observation} {ids : List Nat}
    (own : ∀ p ∈ c.probes, p.id ∈ ids) (granted : c.observe w = (.ok o, w')) :
    freeCount ids w' < freeCount ids w := by
  obtain ⟨-, free, held⟩ := Condition.observe_ok granted
  obtain ⟨p, mem⟩ := List.exists_mem_of_ne_nil _ c.probes_ne_nil
  refine freeCount_lt (own p mem) (free p mem) ?_ fun q hq => ?_
  · rw [held p]
    simpa using .inr ⟨p, mem, rfl⟩
  · rw [held q, hq, Bool.true_or]

theorem freeCount_congr {w w' : World} (h : ∀ q, w'.inFlight q = w.inFlight q) (ids : List Nat) :
    freeCount ids w' = freeCount ids w := by
  simp [freeCount, h]

end ObservedTest

/-- Following a script frees and holds nothing, and comes to an end, when the calls in it do. -/
theorem Script.run_isSome (call : ObservedTest → String → World → Option Outcome)
    (register : List ObservedTest) (w₀ : World)
    (calls : ∀ t ∈ register, ∀ input w, (∀ q, w.inFlight q = w₀.inFlight q) →
      ∃ out, call t input w = some out ∧ ∀ q, out.world.inFlight q = w.inFlight q) :
    ∀ (s : Script) (w : World), (∀ q, w.inFlight q = w₀.inFlight q) →
      ∃ w' deeds, s.run call register w = some (w', deeds) ∧ ∀ q, w'.inFlight q = w.inFlight q
  | .done, w, _ => ⟨w, [], rfl, fun _ => rfl⟩
  | .trigger p times next, w, same => by
    obtain ⟨w', deeds, ran, flags⟩ :=
      Script.run_isSome call register w₀ calls next (w.trigger p times)
        fun q => by simpa using same q
    exact ⟨w', .triggered p times :: deeds, by simp [run, ran], fun q => by simpa using flags q⟩
  | .classify t input next, w, same => by
    unfold run
    split
    · exact ⟨w, [], rfl, fun _ => rfl⟩
    · next test found =>
      obtain ⟨inner, called, kept⟩ := calls test (List.mem_of_getElem? found) input w same
      obtain ⟨w', deeds, ran, flags⟩ :=
        Script.run_isSome call register w₀ calls (next inner.verdict) inner.world fun q =>
          (kept q).trans (same q)
      exact ⟨w', inner.deeds ++ .classified t inner.verdict :: deeds, by simp [called, ran],
        fun q => (flags q).trans (kept q)⟩

namespace ObservedTest

/-- **As many levels as there are free probes, and one more, are enough;** and a
classification leaves held exactly what was held. -/
theorem classifyWithin_isSome {register : List ObservedTest} {ids : List Nat}
    (cover : ∀ t ∈ register, ∀ p ∈ t.condition.probes, p.id ∈ ids) :
    ∀ (level : Nat) (t : ObservedTest) (input : String) (w : World),
      (∀ p ∈ t.condition.probes, p.id ∈ ids) → freeCount ids w < level →
        ∃ out, classifyWithin register level t input w = some out ∧
          ∀ q, out.world.inFlight q = w.inFlight q
  | 0, _, _, _, _, h => absurd h (Nat.not_lt_zero _)
  | level + 1, t, input, w, own, h => by
    unfold classifyWithin
    split
    · next e w' refused =>
      exact ⟨_, rfl, fun q => Condition.inFlight_observe_error refused q⟩
    · next o w' granted =>
      have fewer := freeCount_observe own granted
      obtain ⟨w'', deeds, ran, flags⟩ := Script.run_isSome
        (classifyWithin register level) register w'
        (fun s hs input v same => classifyWithin_isSome cover level s input v (cover s hs)
          (by rw [freeCount_congr same]; omega))
        (t.body input) w' fun _ => rfl
      exact ⟨_, by rw [ran]; rfl, Condition.inFlight_release granted flags⟩

/-- The levels that a classification needs at most. -/
def levels (register : List ObservedTest) (t : ObservedTest) : Nat :=
  (probeIds (t :: register)).length + 1

theorem classifyWithin_levels (register : List ObservedTest) (t : ObservedTest) (input : String)
    (w : World) : ∃ out, classifyWithin register (levels register t) t input w = some out ∧
      ∀ q, out.world.inFlight q = w.inFlight q := by
  have cover : ∀ s ∈ t :: register, ∀ p ∈ s.condition.probes, p.id ∈ probeIds (t :: register) :=
    fun _ hs _ hp => mem_probeIds hs hp
  exact classifyWithin_isSome (fun s hs => cover s (List.mem_cons_of_mem _ hs)) _ t input w
    (cover t List.mem_cons_self) (Nat.lt_succ_of_le List.countP_le_length)

/-- **Classifies an input.** -/
def classify (register : List ObservedTest) (t : ObservedTest) (input : String) (w : World) :
    Outcome :=
  (classifyWithin register (levels register t) t input w).get
    (Option.isSome_iff_exists.2 ((classifyWithin_levels register t input w).imp fun _ h => h.1))

/-- Runs the body of a test on an input, observing nothing. -/
def runBody (register : List ObservedTest) (t : ObservedTest) (input : String) (w : World) :
    World × List Deed :=
  ((t.body input).run (fun s i v => some (classify register s i v)) register w).getD (w, [])

/-- **A classification leaves held exactly the probes that were held.** -/
theorem inFlight_classify (register : List ObservedTest) (t : ObservedTest) (input : String)
    (w : World) (q : Probe) : (classify register t input w).world.inFlight q = w.inFlight q := by
  obtain ⟨out, found, flags⟩ := classifyWithin_levels register t input w
  simp [classify, found, flags q]

end ObservedTest

end PreconditionMining
