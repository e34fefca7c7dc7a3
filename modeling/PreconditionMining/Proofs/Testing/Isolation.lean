/-
# What a classification can see

A classification reads the probes of its condition after the body has run.
Between the reset and the reading nobody else resets these probes: they are
held, and an observation nested in the body resets only probes that were free
when it began.  So the count of a held probe only grows, by exactly the triggers
among the deeds (`count_classifyWithin`), and the verdict is the condition read
off the deeds (`triggered_of_run`).

Counts from before the call have no way in.  Which observations are granted
depends on which probes are held alone, so two worlds that hold alike give the
same verdicts and the same deeds (`classifyWithin_congr`).
-/

import PreconditionMining.Proofs.Testing.Unrolling

namespace PreconditionMining

namespace Deed

/-- How often a deed triggered a probe. -/
def timesOf (p : Probe) : Deed → Nat
  | triggered q times => if p.id = q.id then times else 0
  | classified _ _ => 0

/-- How often some deeds triggered a probe. -/
def total (p : Probe) : List Deed → Nat
  | [] => 0
  | d :: ds => d.timesOf p + total p ds

/-- Whether some deeds triggered a probe at all. -/
def happened (deeds : List Deed) (p : Probe) : Bool := 0 < total p deeds

@[simp] theorem total_nil (p : Probe) : total p [] = 0 := rfl

@[simp] theorem total_cons (p : Probe) (d : Deed) (ds : List Deed) :
    total p (d :: ds) = d.timesOf p + total p ds := rfl

@[simp] theorem total_append (p : Probe) (ds es : List Deed) :
    total p (ds ++ es) = total p ds + total p es := by
  induction ds with
  | nil => simp
  | cons d ds ih => rw [List.cons_append, total_cons, total_cons, ih, Nat.add_assoc]

end Deed

/-- What a call does to a held probe: it stays held, and its count grows by the triggers
among the deeds. -/
def Outcome.CountsHeld (w : World) (out : Outcome) : Prop :=
  ∀ q, w.inFlight q = true →
    out.world.inFlight q = true ∧ out.world.count q = w.count q + Deed.total q out.deeds

/-- **Following a script adds its triggers to the counts of the held probes,** when the calls
in it do. -/
theorem Script.count_run {call : ObservedTest → String → World → Option Outcome}
    {register : List ObservedTest}
    (calls : ∀ t input w out, call t input w = some out → out.CountsHeld w) (q : Probe) :
    ∀ (s : Script) (w : World) (w' : World) (deeds : List Deed),
      s.run call register w = some (w', deeds) → w.inFlight q = true →
        w'.inFlight q = true ∧ w'.count q = w.count q + Deed.total q deeds
  | .done, w, w', deeds, h, held => by
    obtain ⟨rfl, rfl⟩ := by simpa [run] using h
    exact ⟨held, rfl⟩
  | .trigger p times next, w, w', deeds, h, held => by
    unfold run at h
    obtain ⟨⟨w₁, ds⟩, ran, same⟩ := Option.map_eq_some_iff.1 h
    obtain ⟨rfl, rfl⟩ := Prod.mk.inj same
    obtain ⟨held', counted⟩ :=
      Script.count_run calls q next (w.trigger p times) w₁ ds ran (by simpa using held)
    refine ⟨held', ?_⟩
    rw [counted, World.count_trigger, Deed.total_cons, Deed.timesOf]
    split <;> omega
  | .classify t input next, w, w', deeds, h, held => by
    unfold run at h
    split at h
    · obtain ⟨rfl, rfl⟩ := by simpa using h
      exact ⟨held, rfl⟩
    · next test found =>
      split at h
      · cases h
      · next inner called =>
        obtain ⟨⟨w₁, ds⟩, ran, same⟩ := Option.map_eq_some_iff.1 h
        obtain ⟨rfl, rfl⟩ := Prod.mk.inj same
        obtain ⟨heldInner, countedInner⟩ := calls test input w inner called q held
        obtain ⟨held', counted⟩ :=
          Script.count_run calls q (next inner.verdict) inner.world w₁ ds ran heldInner
        refine ⟨held', ?_⟩
        rw [counted, countedInner, Deed.total_append, Deed.total_cons, Deed.timesOf]
        omega

namespace ObservedTest

variable {register : List ObservedTest}

/-- **What is held on entry is only added to.** -/
theorem count_classifyWithin :
    ∀ (level : Nat) (t : ObservedTest) (input : String) (w : World) (out : Outcome),
      classifyWithin register level t input w = some out → out.CountsHeld w
  | 0, _, _, _, _, h => by cases h
  | level + 1, t, input, w, out, h => by
    intro q held
    unfold classifyWithin at h
    split at h
    · next e w' refused =>
      obtain rfl := Option.some.inj h
      exact ⟨by rw [Condition.inFlight_observe_error refused q, held],
        by simp [Condition.count_observe_error refused q]⟩
    · next o w' granted =>
      obtain ⟨⟨w'', deeds⟩, ran, rfl⟩ := Option.map_eq_some_iff.1 h
      obtain ⟨rfl, free, flags⟩ := Condition.observe_ok granted
      have foreign : q.id ∉ t.condition.probes.map (·.id) := by
        intro mem
        obtain ⟨p, hp, same⟩ := List.mem_map.1 mem
        rw [← World.inFlight_of_id same, free p hp] at held
        cases held
      have kept : w'.count q = w.count q := by
        rw [Condition.count_observe_ok granted q, if_neg]
        rwa [← Condition.mem_ids_probes]
      obtain ⟨held', counted⟩ := Script.count_run
        (fun s i v inner called => count_classifyWithin level s i v inner called) q
        (t.body input) w' w'' deeds ran (by rw [flags q, held, Bool.true_or])
      refine ⟨?_, ?_⟩
      · simpa [Observation.release, foreign] using held'
      · simp only [Observation.release, World.count_freeAll]
        rw [counted, kept]

/-- **A condition that is observed while a body runs reads the deeds.** -/
theorem triggered_of_run {call : ObservedTest → String → World → Option Outcome}
    (calls : ∀ t input w out, call t input w = some out → out.CountsHeld w)
    {c : Condition} {w w' w'' : World} {o : Observation} {s : Script} {deeds : List Deed}
    (granted : c.observe w = (.ok o, w')) (ran : s.run call register w' = some (w'', deeds)) :
    o.triggered w'' = c.eval (Deed.happened deeds) := by
  obtain ⟨rfl, -, flags⟩ := Condition.observe_ok granted
  refine Condition.eval_congr c fun p hp => ?_
  have mem : p.id ∈ c.leaves.map (·.id) := List.mem_map.2 ⟨p, hp, rfl⟩
  have held : w'.inFlight p = true := by
    rw [flags p, decide_eq_true ((Condition.mem_ids_probes c).2 mem), Bool.or_true]
  have fresh : w'.count p = 0 := by
    rw [Condition.count_observe_ok granted p, if_pos mem]
  obtain ⟨-, counted⟩ := Script.count_run calls p s w' w'' deeds ran held
  rw [World.triggered, Deed.happened, counted, fresh, Nat.zero_add]

end ObservedTest

/-- Two outcomes that differ in the counts at most. -/
def Outcome.Alike (a b : Outcome) : Prop :=
  a.verdict = b.verdict ∧ a.deeds = b.deeds ∧ ∀ q, a.world.inFlight q = b.world.inFlight q

/-- A script does the same in worlds that hold alike, when the calls in it do. -/
theorem Script.run_congr {call : ObservedTest → String → World → Option Outcome}
    {register : List ObservedTest}
    (calls : ∀ t input v w out, (∀ q, v.inFlight q = w.inFlight q) → call t input w = some out →
      ∃ out', call t input v = some out' ∧ out'.Alike out) :
    ∀ (s : Script) (v w : World) (w' : World) (deeds : List Deed),
      (∀ q, v.inFlight q = w.inFlight q) → s.run call register w = some (w', deeds) →
        ∃ v', s.run call register v = some (v', deeds) ∧ ∀ q, v'.inFlight q = w'.inFlight q
  | .done, v, w, w', deeds, same, h => by
    obtain ⟨rfl, rfl⟩ := by simpa [run] using h
    exact ⟨v, rfl, same⟩
  | .trigger p times next, v, w, w', deeds, same, h => by
    unfold run at h
    obtain ⟨⟨w₁, ds⟩, ran, eq⟩ := Option.map_eq_some_iff.1 h
    obtain ⟨rfl, rfl⟩ := Prod.mk.inj eq
    obtain ⟨v', ran', same'⟩ := Script.run_congr calls next (v.trigger p times)
      (w.trigger p times) w₁ ds (fun q => by simpa using same q) ran
    exact ⟨v', by simp [run, ran'], same'⟩
  | .classify t input next, v, w, w', deeds, same, h => by
    unfold run at h
    split at h
    · next missing =>
      obtain ⟨rfl, rfl⟩ := by simpa using h
      exact ⟨v, by simp [run, missing], same⟩
    · next test found =>
      split at h
      · cases h
      · next inner called =>
        obtain ⟨⟨w₁, ds⟩, ran, eq⟩ := Option.map_eq_some_iff.1 h
        obtain ⟨rfl, rfl⟩ := Prod.mk.inj eq
        obtain ⟨inner', called', verdict, ds', flags⟩ := calls test input v w inner same called
        obtain ⟨v', ran', same'⟩ := Script.run_congr calls (next inner.verdict) inner'.world
          inner.world w₁ ds flags ran
        exact ⟨v', by simp [run, found, called', verdict, ds', ran'], same'⟩

namespace ObservedTest

variable {register : List ObservedTest}

/-- **Counts from before a call have no way in.**  Worlds that hold the same probes give the same
verdict and the same deeds. -/
theorem classifyWithin_congr :
    ∀ (level : Nat) (t : ObservedTest) (input : String) (v w : World) (out : Outcome),
      (∀ q, v.inFlight q = w.inFlight q) → classifyWithin register level t input w = some out →
        ∃ out', classifyWithin register level t input v = some out' ∧ out'.Alike out
  | 0, _, _, _, _, _, _, h => by cases h
  | level + 1, t, input, v, w, out, same, h => by
    have answers := Condition.observe_fst_congr t.condition same
    have holds := Condition.inFlight_observe_congr t.condition same
    rcases atV : t.condition.observe v with ⟨answer, v'⟩
    rcases atW : t.condition.observe w with ⟨answer', w'⟩
    rw [atV, atW] at answers holds
    obtain rfl : answer = answer' := answers
    cases answer with
    | error e =>
      simp only [classifyWithin, atW, Option.some.injEq] at h
      subst h
      exact ⟨⟨.error e, v', []⟩, by simp [classifyWithin, atV], rfl, rfl, holds⟩
    | ok o =>
      simp only [classifyWithin, atW] at h
      obtain ⟨⟨w'', deeds⟩, ran, rfl⟩ := Option.map_eq_some_iff.1 h
      obtain ⟨v'', ran', flags⟩ := Script.run_congr
        (fun s i v w inner => classifyWithin_congr level s i v w inner) (t.body input) v' w' w''
        deeds holds ran
      have readV := triggered_of_run (count_classifyWithin level) atV ran'
      have readW := triggered_of_run (count_classifyWithin level) atW ran
      refine ⟨⟨.ok (o.triggered v''), o.release v'', deeds⟩,
        by simp only [classifyWithin, atV, ran', Option.map_some], ?_, rfl, fun q => ?_⟩
      · simp only
        rw [readV, readW]
      · simp only [Observation.release, World.inFlight_freeAll, flags q]

theorem classify_congr (register : List ObservedTest) (t : ObservedTest) (input : String)
    {v w : World} (same : ∀ q, v.inFlight q = w.inFlight q) :
    (classify register t input v).Alike (classify register t input w) := by
  obtain ⟨out, answered, alike⟩ := classifyWithin_congr _ t input v w _ same
    (classifyWithin_eq_classify register t input w)
  rwa [classify_of_classifyWithin answered]

/-- A refused classification does nothing, whatever the body is. -/
theorem classify_of_refused (register : List ObservedTest) (t : ObservedTest) (input : String)
    {w w' : World} {e : ConditionError} (refused : t.condition.observe w = (.error e, w')) :
    classify register t input w = ⟨.error e, w', []⟩ := by
  rw [classify_eq, refused]

/-- A granted classification gives the condition as the deeds of the body say. -/
theorem classify_of_granted (register : List ObservedTest) (t : ObservedTest) (input : String)
    {w w' : World} {o : Observation} (granted : t.condition.observe w = (.ok o, w')) :
    (classify register t input w).deeds = (runBody register t input w').2 ∧
      (classify register t input w).verdict =
        .ok (t.condition.eval (Deed.happened (classify register t input w).deeds)) := by
  have own := classifyWithin_eq_classify register t input w
  simp only [levels, classifyWithin, granted] at own
  obtain ⟨⟨w'', deeds⟩, ran, same⟩ := Option.map_eq_some_iff.1 own
  rw [← same, run_classifyWithin ran]
  refine ⟨rfl, ?_⟩
  simp only
  rw [triggered_of_run (count_classifyWithin _) granted ran]

/-- **A classification reads its own extent, and leaves no trace on the flags.**  It is refused
when and only when a probe of the condition is held; then nothing changes and nothing is done,
whatever the body is.  Otherwise the verdict is the condition, each probe being on that the body
and the bodies nested in it triggered, and the deeds are those of the body.  Afterwards exactly
those probes are held that were, and no count from before the call has a part in it. -/
theorem classify_reads_own_extent (register : List ObservedTest) (t : ObservedTest)
    (input : String) (w : World) :
    let out := classify register t input w
    ((∃ e, out.verdict = .error e) ↔ ∃ p ∈ t.condition.leaves, w.inFlight p = true) ∧
    ((∃ p ∈ t.condition.leaves, w.inFlight p = true) →
      (∀ q, out.world.count q = w.count q ∧ out.world.inFlight q = w.inFlight q) ∧
        out.deeds = [] ∧ ∀ body, classify register { t with body := body } input w = out) ∧
    ((∀ p ∈ t.condition.leaves, w.inFlight p = false) →
      out.verdict = .ok (t.condition.eval (Deed.happened out.deeds)) ∧
        out.deeds = (runBody register t input (t.condition.observe w).2).2) ∧
    (∀ q, out.world.inFlight q = w.inFlight q) ∧
    ∀ v, (∀ q, v.inFlight q = w.inFlight q) →
      (classify register t input v).verdict = out.verdict ∧
        (classify register t input v).deeds = out.deeds := by
  intro out
  have same : ∀ v, (∀ q, v.inFlight q = w.inFlight q) →
      (classify register t input v).verdict = out.verdict ∧
        (classify register t input v).deeds = out.deeds := by
    intro v flags
    have alike := classify_congr register t input flags
    exact ⟨alike.1, alike.2.1⟩
  have flags := inFlight_classify register t input w
  rcases observed : t.condition.observe w with ⟨e | o, w'⟩
  · have held : ∃ p ∈ t.condition.leaves, w.inFlight p = true :=
      (Condition.observe_isError_iff t.condition w).1 ⟨e, by rw [observed]⟩
    have own : out = ⟨.error e, w', []⟩ := classify_of_refused register t input observed
    refine ⟨⟨fun _ => held, fun _ => ⟨e, by rw [own]⟩⟩, fun _ => ⟨fun q => ⟨?_, flags q⟩, by rw [own],
      fun body => ?_⟩, fun free => ?_, flags, same⟩
    · rw [own]
      exact Condition.count_observe_error observed q
    · rw [own]
      exact classify_of_refused register { t with body := body } input observed
    · obtain ⟨p, hp, h⟩ := held
      rw [free p hp] at h
      cases h
  · have free : ∀ p ∈ t.condition.leaves, w.inFlight p = false :=
      (Condition.observe_isOk_iff t.condition w).1 ⟨o, by rw [observed]⟩
    have unheld : ¬ ∃ p ∈ t.condition.leaves, w.inFlight p = true := by
      rintro ⟨p, hp, h⟩
      rw [free p hp] at h
      cases h
    obtain ⟨deeds, verdict⟩ := classify_of_granted register t input observed
    refine ⟨⟨?_, fun held => absurd held unheld⟩, fun held => absurd held unheld,
      fun _ => ⟨verdict, deeds⟩, flags, same⟩
    rintro ⟨e, failed⟩
    rw [show out.verdict = _ from verdict] at failed
    cases failed

end ObservedTest

end PreconditionMining
