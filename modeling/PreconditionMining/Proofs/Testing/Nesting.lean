/-
# Classifications under way

`ObservedTest.classify` answers at once.  Here a classification goes step by
step, with all that are nested in it, so that one sees which of them are under
way: one is at work, and the others wait for one another (`Nest`).  The steps set
no bound to the nesting, and a body need not do the same each time that it runs:
`bodies k` says what the body of the classification does that is granted as
number `k`.

Every granted classification that is under way holds its probes, and no two of
them hold the same one, since a probe is claimed only while it is free.  So each
has a probe to itself (`Sound`, `sound_step`, `sound_run`), and there are never
more of them than probes.  That they come to an end follows from the same probes:
one more that is granted leaves fewer free, and what a body has still to do gets
smaller with each of its steps (`follow_ends`, `call_ends`).  With the bodies of
the tests themselves the end is what `classify` answers.
-/

import PreconditionMining.Proofs.Testing.Unrolling

namespace PreconditionMining

/-- A classification that waits for one nested in it: what it observes, which test it asked for,
and how its body goes on. -/
structure Waiting where
  observation : Observation
  test : Nat
  next : Except ConditionError Bool → Script

/-- What a nest of classifications is at. -/
inductive Activity
  /-- A test is called to classify an input. -/
  | call (t : ObservedTest) (input : String)
  /-- The body of a granted classification has a script to follow. -/
  | body (observation : Observation) (script : Script)
  /-- A call has come to its verdict. -/
  | answer (verdict : Except ConditionError Bool)

/-- Classifications nested in one another: what is at work, and the classifications that wait for
it, the innermost first. -/
structure Nest where
  activity : Activity
  waiting : List Waiting
  world : World
  /-- What the bodies have done so far. -/
  deeds : List Deed
  /-- How many classifications were granted so far. -/
  granted : Nat

namespace Nest

/-- A call that nothing waits for but the caller. -/
def start (t : ObservedTest) (input : String) (w : World) : Nest := ⟨.call t input, [], w, [], 0⟩

/-- One step.  The answer to the outermost call stays as it is. -/
def step (register : List ObservedTest) (bodies : Nat → ObservedTest → String → Script) :
    Nest → Nest
  | ⟨.call t input, waiting, w, deeds, granted⟩ =>
    match t.condition.observe w with
    | (.error e, w') => ⟨.answer (.error e), waiting, w', deeds, granted⟩
    | (.ok o, w') => ⟨.body o (bodies granted t input), waiting, w', deeds, granted + 1⟩
  | ⟨.body o .done, waiting, w, deeds, granted⟩ =>
    ⟨.answer (.ok (o.triggered w)), waiting, o.release w, deeds, granted⟩
  | ⟨.body o (.trigger p times next), waiting, w, deeds, granted⟩ =>
    ⟨.body o next, waiting, w.trigger p times, deeds ++ [.triggered p times], granted⟩
  | ⟨.body o (.classify t input next), waiting, w, deeds, granted⟩ =>
    match register[t]? with
    | none => ⟨.body o .done, waiting, w, deeds, granted⟩
    | some test => ⟨.call test input, ⟨o, t, next⟩ :: waiting, w, deeds, granted⟩
  | ⟨.answer v, [], w, deeds, granted⟩ => ⟨.answer v, [], w, deeds, granted⟩
  | ⟨.answer v, ⟨o, t, next⟩ :: waiting, w, deeds, granted⟩ =>
    ⟨.body o (next v), waiting, w, deeds ++ [.classified t v], granted⟩

/-- Makes a number of steps. -/
def run (register : List ObservedTest) (bodies : Nat → ObservedTest → String → Script) :
    Nat → Nest → Nest
  | 0, n => n
  | k + 1, n => run register bodies k (n.step register bodies)

/-- The answer to the outermost call, once there is one. -/
def outcome? : Nest → Option Outcome
  | ⟨.answer v, [], w, deeds, _⟩ => some ⟨v, w, deeds⟩
  | _ => none

/-- The observations of the granted classifications that are under way, the innermost first. -/
def live (n : Nest) : List Observation :=
  match n.activity with
  | .body o _ => o :: n.waiting.map (·.observation)
  | _ => n.waiting.map (·.observation)

variable {register : List ObservedTest} {bodies : Nat → ObservedTest → String → Script}

theorem run_add (j k : Nat) (n : Nest) :
    run register bodies (j + k) n = run register bodies k (run register bodies j n) := by
  induction j generalizing n with
  | zero => rw [Nat.zero_add, run]
  | succ j ih => rw [Nat.succ_add, run, ih, run]

/-- Some number of steps leads from one nest to another. -/
def Leads (register : List ObservedTest) (bodies : Nat → ObservedTest → String → Script)
    (n n' : Nest) : Prop :=
  ∃ k, run register bodies k n = n'

theorem Leads.refl (n : Nest) : Leads register bodies n n := ⟨0, rfl⟩

theorem Leads.step {n n' : Nest} (h : Leads register bodies (n.step register bodies) n') :
    Leads register bodies n n' := by
  obtain ⟨k, ran⟩ := h
  exact ⟨k + 1, ran⟩

theorem Leads.trans {n n' n'' : Nest} (h : Leads register bodies n n')
    (h' : Leads register bodies n' n'') : Leads register bodies n n'' := by
  obtain ⟨j, rfl⟩ := h
  obtain ⟨k, rfl⟩ := h'
  exact ⟨j + k, run_add j k n⟩

/-- The body of each granted classification does what the test says. -/
abbrev ownBodies : Nat → ObservedTest → String → Script := fun _ t => t.body

/-- **A call comes back:** it is answered in the nest in which it was made, with the probes held
that were held before; and with the tests' own bodies the answer is found within a number of
levels. -/
def ComesBack (register : List ObservedTest) (bodies : Nat → ObservedTest → String → Script)
    (level : Nat) (t : ObservedTest) (input : String) (w : World) : Prop :=
  ∀ waiting deeds granted, ∃ (out : Outcome) (granted' : Nat),
    Leads register bodies ⟨.call t input, waiting, w, deeds, granted⟩
      ⟨.answer out.verdict, waiting, out.world, deeds ++ out.deeds, granted'⟩ ∧
    (∀ q, out.world.inFlight q = w.inFlight q) ∧
    (bodies = ownBodies → ObservedTest.classifyWithin register level t input w = some out)

/-- A script is followed to its end when the calls in it come back. -/
theorem follow_ends {level : Nat} {w₀ : World}
    (calls : ∀ t ∈ register, ∀ input w, (∀ q, w.inFlight q = w₀.inFlight q) →
      ComesBack register bodies level t input w) (o : Observation) (waiting : List Waiting) :
    ∀ (s : Script) (w : World) (deeds : List Deed) (granted : Nat),
      (∀ q, w.inFlight q = w₀.inFlight q) →
      ∃ (w' : World) (ds : List Deed) (granted' : Nat),
        Leads register bodies ⟨.body o s, waiting, w, deeds, granted⟩
          ⟨.body o .done, waiting, w', deeds ++ ds, granted'⟩ ∧
        (∀ q, w'.inFlight q = w.inFlight q) ∧
        (bodies = ownBodies →
          s.run (ObservedTest.classifyWithin register level) register w = some (w', ds))
  | .done, w, deeds, granted, _ =>
    ⟨w, [], granted, by rw [List.append_nil]; exact .refl _, fun _ => rfl, fun _ => rfl⟩
  | .trigger p times next, w, deeds, granted, same => by
    obtain ⟨w', ds, granted', leads, flags, ran⟩ :=
      follow_ends calls o waiting next (w.trigger p times) (deeds ++ [.triggered p times]) granted
        fun q => by rw [World.inFlight_trigger, same q]
    refine ⟨w', .triggered p times :: ds, granted', .step ?_, fun q => ?_, fun own => ?_⟩
    · rw [List.append_cons]
      exact leads
    · rw [flags q, World.inFlight_trigger]
    · rw [Script.run, ran own]
      rfl
  | .classify t input next, w, deeds, granted, same => by
    cases found : register[t]? with
    | none =>
      refine ⟨w, [], granted, .step ?_, fun _ => rfl, fun _ => by rw [Script.run, found]⟩
      rw [step, found, List.append_nil]
      exact .refl _
    | some test =>
      obtain ⟨out, granted₁, called, kept, answered⟩ :=
        calls test (List.mem_of_getElem? found) input w same (⟨o, t, next⟩ :: waiting) deeds granted
      obtain ⟨w', ds, granted', leads, flags, ran⟩ :=
        follow_ends calls o waiting (next out.verdict) out.world
          (deeds ++ out.deeds ++ [.classified t out.verdict]) granted₁
          fun q => (kept q).trans (same q)
      refine ⟨w', out.deeds ++ .classified t out.verdict :: ds, granted', .step ?_,
        fun q => (flags q).trans (kept q), fun own => ?_⟩
      · rw [step, found]
        refine called.trans (.step ?_)
        rw [List.append_cons, ← List.append_assoc, ← List.append_assoc]
        exact leads
      · simp only [Script.run, found, answered own, ran own, Option.map_some]

/-- **Every call comes back.**  The induction is on a bound for the listed probes that are free: a
granted call holds one more of them while its body runs. -/
theorem call_ends {ids : List Nat}
    (cover : ∀ t ∈ register, ∀ p ∈ t.condition.probes, p.id ∈ ids) :
    ∀ (level : Nat) (t : ObservedTest) (input : String) (w : World),
      (∀ p ∈ t.condition.probes, p.id ∈ ids) → ObservedTest.freeCount ids w < level →
        ComesBack register bodies level t input w
  | 0, _, _, _, _, less => absurd less (Nat.not_lt_zero _)
  | level + 1, t, input, w, own, less => by
    intro waiting deeds granted
    rcases observed : t.condition.observe w with ⟨e | o, w'⟩
    · refine ⟨⟨.error e, w', []⟩, granted, .step ?_,
        fun q => Condition.inFlight_observe_error observed q, fun _ => ?_⟩
      · rw [step, observed, List.append_nil]
        exact .refl _
      · rw [ObservedTest.classifyWithin, observed]
    · obtain ⟨w'', ds, granted', leads, flags, ran⟩ := follow_ends
        (fun s hs i v same => call_ends cover level s i v (cover s hs) (by
          have fewer := ObservedTest.freeCount_observe own observed
          rw [ObservedTest.freeCount_congr same]
          omega))
        o waiting (bodies granted t input) w' deeds (granted + 1) fun _ => rfl
      refine ⟨⟨.ok (o.triggered w''), o.release w'', ds⟩, granted', .step ?_,
        fun q => Condition.inFlight_release observed flags q, fun same => ?_⟩
      · rw [step, observed]
        exact leads.trans (.step (.refl _))
      · rw [same] at ran
        simp only [ObservedTest.classifyWithin, observed, ran rfl, Option.map_some]

/-- Two observations have no probe in common. -/
def Apart (o o' : Observation) : Prop := ∀ p ∈ o.probes, ∀ p' ∈ o'.probes, p.id ≠ p'.id

/-- **What holds at every step:** the classifications under way hold their probes, some of those
that are listed, and no two of them hold the same one. -/
structure Sound (ids : List Nat) (n : Nest) : Prop where
  held : ∀ o ∈ n.live, ∀ p ∈ o.probes, n.world.inFlight p = true
  apart : n.live.Pairwise Apart
  listed : ∀ o ∈ n.live, o.probes ≠ [] ∧ ∀ p ∈ o.probes, p.id ∈ ids
  called : ∀ t input, n.activity = .call t input → ∀ p ∈ t.condition.probes, p.id ∈ ids

/-- A step that begins and ends no classification keeps the invariant, if it leaves held what was
held and calls a test of those that are listed. -/
theorem Sound.of_same {ids : List Nat} {n n' : Nest} (h : n.Sound ids) (live : n'.live = n.live)
    (flags : ∀ p, n'.world.inFlight p = n.world.inFlight p)
    (called : ∀ t input, n'.activity = .call t input → ∀ p ∈ t.condition.probes, p.id ∈ ids) :
    n'.Sound ids where
  held o mem p hp := by
    rw [flags p]
    exact h.held o (live ▸ mem) p hp
  apart := live ▸ h.apart
  listed o mem := h.listed o (live ▸ mem)
  called := called

theorem sound_start {ids : List Nat} {t : ObservedTest} (own : ∀ p ∈ t.condition.probes, p.id ∈ ids)
    (input : String) (w : World) : (start t input w).Sound ids where
  held o mem := absurd mem List.not_mem_nil
  apart := .nil
  listed o mem := absurd mem List.not_mem_nil
  called s i same := by
    obtain ⟨rfl, rfl⟩ := Activity.call.inj same
    exact own

/-- A granted call claims probes that nobody holds. -/
theorem Sound.grant {ids : List Nat} {t : ObservedTest} {input : String} {waiting : List Waiting}
    {w w' : World} {deeds : List Deed} {granted : Nat} {o : Observation} {s : Script}
    (h : Sound ids ⟨.call t input, waiting, w, deeds, granted⟩)
    (observed : t.condition.observe w = (.ok o, w')) :
    Sound ids ⟨.body o s, waiting, w', deeds, granted + 1⟩ := by
  obtain ⟨rfl, free, flags⟩ := Condition.observe_ok observed
  refine ⟨fun o' mem p hp => ?_, ?_, fun o' mem => ?_, fun _ _ same => by cases same⟩
  · rw [flags p, Bool.or_eq_true, decide_eq_true_eq]
    rcases List.mem_cons.1 mem with rfl | mem
    · exact .inr (List.mem_map.2 ⟨p, hp, rfl⟩)
    · exact .inl (h.held o' mem p hp)
  · refine List.pairwise_cons.2 ⟨fun o' mem p hp p' hp' same => ?_, h.apart⟩
    have held : w.inFlight p' = true := h.held o' mem p' hp'
    rw [← World.inFlight_of_id same, free p hp] at held
    cases held
  · rcases List.mem_cons.1 mem with rfl | mem
    · exact ⟨t.condition.probes_ne_nil, h.called t input rfl⟩
    · exact h.listed o' mem

/-- A classification that ends frees its own probes only. -/
theorem Sound.finish {ids : List Nat} {waiting : List Waiting} {w : World} {deeds : List Deed}
    {granted : Nat} {o : Observation} {v : Except ConditionError Bool}
    (h : Sound ids ⟨.body o .done, waiting, w, deeds, granted⟩) :
    Sound ids ⟨.answer v, waiting, o.release w, deeds, granted⟩ := by
  obtain ⟨others, apart⟩ := List.pairwise_cons.1 h.apart
  refine ⟨fun o' mem p hp => ?_, apart, fun o' mem => h.listed o' (List.mem_cons_of_mem _ mem),
    fun _ _ same => by cases same⟩
  have foreign : p.id ∉ o.probes.map (·.id) := by
    intro mine
    obtain ⟨p', hp', same⟩ := List.mem_map.1 mine
    exact others o' mem p' hp' p hp same
  show (w.freeAll o.probes).inFlight p = true
  rw [World.inFlight_freeAll, if_neg foreign]
  exact h.held o' (List.mem_cons_of_mem _ mem) p hp

/-- **Each step keeps the invariant,** whatever the bodies do. -/
theorem sound_step {ids : List Nat} (cover : ∀ t ∈ register, ∀ p ∈ t.condition.probes, p.id ∈ ids)
    {n : Nest} (h : n.Sound ids) : (n.step register bodies).Sound ids := by
  obtain ⟨activity, waiting, w, deeds, granted⟩ := n
  cases activity with
  | call t input =>
    rw [step]
    rcases observed : t.condition.observe w with ⟨e | o, w'⟩
    · exact h.of_same rfl (Condition.inFlight_observe_error observed) fun _ _ same => by cases same
    · exact h.grant observed
  | body o s =>
    cases s with
    | done => exact h.finish
    | trigger p times next =>
      exact h.of_same rfl (fun q => World.inFlight_trigger w p q times) fun _ _ same => by cases same
    | classify t input next =>
      rw [step]
      cases found : register[t]? with
      | none => exact h.of_same rfl (fun _ => rfl) fun _ _ same => by cases same
      | some test =>
        refine h.of_same rfl (fun _ => rfl) fun s i same => ?_
        obtain ⟨rfl, rfl⟩ := Activity.call.inj same
        exact cover test (List.mem_of_getElem? found)
  | answer v =>
    cases waiting with
    | nil => exact h
    | cons outer waiting => exact h.of_same rfl (fun _ => rfl) fun _ _ same => by cases same

theorem sound_run {ids : List Nat} (cover : ∀ t ∈ register, ∀ p ∈ t.condition.probes, p.id ∈ ids)
    (k : Nat) {n : Nest} (h : n.Sound ids) : (run register bodies k n).Sound ids := by
  induction k generalizing n with
  | zero => exact h
  | succ k ih => exact ih (sound_step cover h)

/-- **There are no more classifications under way than probes.** -/
theorem Sound.length_live_le {ids : List Nat} {n : Nest} (h : n.Sound ids) :
    n.live.length ≤ ids.length := by
  -- each of them is represented by the first of its probes
  have first : ∀ o ∈ n.live, o.probes.headD default ∈ o.probes := by
    intro o mem
    cases probes : o.probes with
    | nil => exact absurd probes (h.listed o mem).1
    | cons p ps => exact List.mem_cons_self
  have distinct : (n.live.map fun o => (o.probes.headD default).id).Nodup := by
    refine List.pairwise_map.2 (h.apart.imp_of_mem fun {o o'} mem mem' apart => ?_)
    exact apart _ (first o mem) _ (first o' mem')
  have among : (n.live.map fun o => (o.probes.headD default).id) ⊆ ids := by
    intro i mem
    obtain ⟨o, ho, rfl⟩ := List.mem_map.1 mem
    exact (h.listed o ho).2 _ (first o ho)
  simpa using distinct.length_le_of_subset among

/-- Each of the classifications under way holds a probe that no other one holds. -/
theorem Sound.exists_own {ids : List Nat} {n : Nest} (h : n.Sound ids) {i : Nat} {o : Observation}
    (here : n.live[i]? = some o) :
    ∃ p ∈ o.probes, n.world.inFlight p = true ∧
      ∀ j o', n.live[j]? = some o' → p.id ∈ o'.probes.map (·.id) → j = i := by
  have mem := List.mem_of_getElem? here
  obtain ⟨p, hp⟩ := List.exists_mem_of_ne_nil _ (h.listed o mem).1
  refine ⟨p, hp, h.held o mem p hp, fun j o' there shared => ?_⟩
  obtain ⟨p', hp', same⟩ := List.mem_map.1 shared
  obtain ⟨lt, rfl⟩ := List.getElem?_eq_some_iff.1 here
  obtain ⟨lt', rfl⟩ := List.getElem?_eq_some_iff.1 there
  have apart := List.pairwise_iff_getElem.1 h.apart
  rcases Nat.lt_trichotomy i j with before | rfl | after
  · exact absurd same.symm (apart i j lt lt' before p hp p' hp')
  · rfl
  · exact absurd same (apart j i lt' lt after p' hp' p hp)

/-- **Nested classification ends, and its depth is bounded by the probes.**  Whatever the bodies do
each time that they run, and whichever tests they have classified, a call is answered after finitely
many steps, and with the tests' own bodies the answer is that of `ObservedTest.classify`.  At every
step each granted classification that is under way holds a probe that no other one holds, and there
are no more of them than the conditions of the tests have distinct probes. -/
theorem nesting_ends (register : List ObservedTest) (bodies : Nat → ObservedTest → String → Script)
    (t : ObservedTest) (input : String) (w : World) :
    (∃ k out, (run register bodies k (start t input w)).outcome? = some out) ∧
    (∃ k, (run register ownBodies k (start t input w)).outcome? =
      some (ObservedTest.classify register t input w)) ∧
    ∀ k, (run register bodies k (start t input w)).live.length ≤
        (ObservedTest.probeIds (t :: register)).length ∧
      ∀ (i : Nat) (o : Observation),
        (run register bodies k (start t input w)).live[i]? = some o →
        ∃ p ∈ o.probes, (run register bodies k (start t input w)).world.inFlight p = true ∧
          ∀ (j : Nat) (o' : Observation),
            (run register bodies k (start t input w)).live[j]? = some o' →
            p.id ∈ o'.probes.map (·.id) → j = i := by
  have own : ∀ p ∈ t.condition.probes, p.id ∈ ObservedTest.probeIds (t :: register) :=
    fun _ hp => ObservedTest.mem_probeIds List.mem_cons_self hp
  have cover : ∀ s ∈ register, ∀ p ∈ s.condition.probes,
      p.id ∈ ObservedTest.probeIds (t :: register) :=
    fun _ hs _ hp => ObservedTest.mem_probeIds (List.mem_cons_of_mem _ hs) hp
  have comesBack : ∀ bodies, ComesBack register bodies (ObservedTest.levels register t) t input w :=
    fun bodies => call_ends cover _ t input w own (Nat.lt_succ_of_le List.countP_le_length)
  refine ⟨?_, ?_, fun k => ?_⟩
  · obtain ⟨out, granted, ⟨k, ran⟩, -⟩ := comesBack bodies [] [] 0
    exact ⟨k, out, by rw [start, ran]; rfl⟩
  · obtain ⟨out, granted, ⟨k, ran⟩, -, answered⟩ := comesBack ownBodies [] [] 0
    refine ⟨k, ?_⟩
    rw [ObservedTest.classify_of_classifyWithin (answered rfl), start, ran]
    rfl
  · have sound : (run register bodies k (start t input w)).Sound _ :=
      sound_run cover k (sound_start own input w)
    exact ⟨sound.length_live_le, fun i o here => sound.exists_own here⟩

end Nest

end PreconditionMining
