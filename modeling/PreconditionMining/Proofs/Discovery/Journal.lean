/-
# Journals of discoveries

What a discovery asks of its sampler is seen by a sampler that keeps a journal:
it answers as another one does and enters each call with its answer
(`Sampler.recording`).  A discovery that is given such a sampler goes as before,
and its journal is true (`Discovery.Recorded`).

From a journal one reads what the solver answered when it was asked for a fresh
sample (`Journal.draws`), which samples it was shown to be mutated
(`Journal.shown`), which samples it gave, fresh ones and mutants
(`Journal.given`), and what the judge said of which sample (`Journal.verdicts`);
the samples filed by their verdicts are the pools that the journal tells of
(`Journal.filed`).  All of these go along with
concatenation, so that a journal can be read part by part.
-/

import PreconditionMining.Discovery.Basic

namespace PreconditionMining

namespace Discovery

/-- A call of a sampler with its answer. -/
inductive Entry
  | solved (answer : Except SolverError Tree)
  | mutated (sample : Tree) (answer : Except SolverError Tree)
  | judged (sample : Tree) (verdict : Except ConditionError Bool)

/-- The calls of a sampler, the earliest first. -/
abbrev Journal := List Entry

namespace Entry

/-- The sample that a call gives. -/
def given? : Entry → Option Tree
  | solved (.ok t) | mutated _ (.ok t) => some t
  | _ => none

/-- The answer of a call for a fresh sample. -/
def drawn? : Entry → Option (Except SolverError Tree)
  | solved answer => some answer
  | _ => none

/-- The sample that a call shows to be mutated. -/
def shown? : Entry → Option Tree
  | mutated sample _ => some sample
  | _ => none

/-- The sample that a call has judged, with the verdict. -/
def verdict? : Entry → Option (Tree × Except ConditionError Bool)
  | judged sample verdict => some (sample, verdict)
  | _ => none

/-- Whether a sampler may answer a call like this. -/
def Genuine {σ : Type} (sampler : Sampler σ) : Entry → Prop
  | solved answer => ∃ s, (sampler.solve s).1 = answer
  | mutated sample answer => ∃ s, (sampler.mutate sample s).1 = answer
  | judged sample verdict => ∃ s, (sampler.classify sample s).1 = verdict

end Entry

/-- The sample of a verdict, if the verdict is the one that is asked for. -/
def sampleOf? (triggered : Bool) : Tree × Except ConditionError Bool → Option Tree
  | (sample, .ok b) => if b = triggered then some sample else none
  | (_, .error _) => none

namespace Journal

/-- The samples that the solver gave, fresh ones and mutants. -/
def given (journal : Journal) : List Tree := journal.filterMap Entry.given?

/-- The answers of the calls for fresh samples. -/
def draws (journal : Journal) : List (Except SolverError Tree) := journal.filterMap Entry.drawn?

/-- The samples that the solver was shown to be mutated. -/
def shown (journal : Journal) : List Tree := journal.filterMap Entry.shown?

/-- The samples that were judged, with their verdicts. -/
def verdicts (journal : Journal) : List (Tree × Except ConditionError Bool) :=
  journal.filterMap Entry.verdict?

/-- **The pools that a journal tells of:** the samples that were judged to trigger the condition,
and those that were judged not to, both in the order of the verdicts. -/
def filed (journal : Journal) : Pools :=
  ⟨journal.verdicts.filterMap (sampleOf? true), journal.verdicts.filterMap (sampleOf? false)⟩

/-- The judge never failed. -/
def NoMisuse (journal : Journal) : Prop := ∀ sample e, .judged sample (.error e) ∉ journal

/-- The solver never refused to mutate. -/
def NoRefusal (journal : Journal) : Prop := ∀ sample e, .mutated sample (.error e) ∉ journal

@[simp] theorem given_append (j k : Journal) : given (j ++ k) = given j ++ given k :=
  List.filterMap_append

@[simp] theorem draws_append (j k : Journal) : draws (j ++ k) = draws j ++ draws k :=
  List.filterMap_append

theorem draws_solved (journal : Journal) (answer : Except SolverError Tree) :
    draws (journal ++ [.solved answer]) = journal.draws ++ [answer] := by
  rw [draws_append]
  rfl

/-- Only a call for a fresh sample adds to the answers of such calls. -/
theorem draws_of_undrawn {journal : Journal} {entry : Entry} (undrawn : entry.drawn? = none) :
    draws (journal ++ [entry]) = journal.draws := by
  rw [draws_append, draws, draws, List.filterMap_cons_none undrawn]
  exact List.append_nil _

@[simp] theorem shown_append (j k : Journal) : shown (j ++ k) = shown j ++ shown k :=
  List.filterMap_append

@[simp] theorem verdicts_append (j k : Journal) : verdicts (j ++ k) = verdicts j ++ verdicts k :=
  List.filterMap_append

@[simp] theorem filed_append (j k : Journal) : filed (j ++ k) = filed j ++ filed k := by
  show Pools.mk _ _ = Pools.append (filed j) (filed k)
  simp [filed, Pools.append]

@[simp] theorem filed_nil : filed [] = .empty := rfl

/-- Filing one more sample by its verdict. -/
theorem append_filed_judged (pools : Pools) {entry : Entry} (fetched : entry.verdict? = none)
    (sample : Tree) (triggered : Bool) :
    pools ++ filed [entry, .judged sample (.ok triggered)] = pools.push sample triggered := by
  have verdicts : verdicts [entry, .judged sample (.ok triggered)] = [(sample, .ok triggered)] := by
    rw [Journal.verdicts, List.filterMap_cons_none fetched]
    rfl
  show Pools.append pools (filed _) = _
  cases triggered <;> simp [filed, verdicts, sampleOf?, Pools.append, Pools.push]

/-- The verdicts are those that were given. -/
theorem mem_verdicts {journal : Journal} {sample : Tree} {verdict : Except ConditionError Bool} :
    (sample, verdict) ∈ journal.verdicts ↔ .judged sample verdict ∈ journal := by
  rw [verdicts, List.mem_filterMap]
  constructor
  · rintro ⟨entry, mem, told⟩
    cases entry with
    | judged t v =>
      cases told
      exact mem
    | solved answer => cases told
    | mutated t answer => cases told
  · intro mem
    exact ⟨_, mem, rfl⟩

/-- A sample is filed under the verdict that it was judged with. -/
theorem mem_filed {journal : Journal} {sample : Tree} {triggered : Bool} :
    sample ∈ journal.verdicts.filterMap (sampleOf? triggered) ↔
      .judged sample (.ok triggered) ∈ journal := by
  rw [List.mem_filterMap, ← mem_verdicts]
  constructor
  · rintro ⟨⟨t, verdict⟩, mem, filed⟩
    cases verdict with
    | error e => cases filed
    | ok b =>
      rw [sampleOf?, Option.ite_none_right_eq_some] at filed
      obtain ⟨rfl, same⟩ := filed
      cases same
      exact mem
  · intro mem
    exact ⟨(sample, .ok triggered), mem, by rw [sampleOf?, if_pos rfl]⟩

theorem noMisuse_nil : NoMisuse [] := fun _ _ mem => nomatch mem

theorem noRefusal_nil : NoRefusal [] := fun _ _ mem => nomatch mem

theorem noMisuse_append {j k : Journal} : NoMisuse (j ++ k) ↔ NoMisuse j ∧ NoMisuse k := by
  simp only [NoMisuse, List.mem_append, not_or]
  exact ⟨fun h => ⟨fun t e => (h t e).1, fun t e => (h t e).2⟩, fun h t e => ⟨h.1 t e, h.2 t e⟩⟩

theorem noRefusal_append {j k : Journal} : NoRefusal (j ++ k) ↔ NoRefusal j ∧ NoRefusal k := by
  simp only [NoRefusal, List.mem_append, not_or]
  exact ⟨fun h => ⟨fun t e => (h t e).1, fun t e => (h t e).2⟩, fun h t e => ⟨h.1 t e, h.2 t e⟩⟩

end Journal

end Discovery

open Discovery

namespace Sampler

variable {σ : Type}

/-- The same sampler, with a journal of its calls. -/
def recording (sampler : Sampler σ) : Sampler (σ × Journal) where
  solve
    | (s, journal) =>
      let (answer, s) := sampler.solve s
      (answer, s, journal ++ [.solved answer])
  mutate sample
    | (s, journal) =>
      let (answer, s) := sampler.mutate sample s
      (answer, s, journal ++ [.mutated sample answer])
  classify sample
    | (s, journal) =>
      let (verdict, s) := sampler.classify sample s
      (verdict, s, journal ++ [.judged sample verdict])
  note e
    | (s, journal) => (sampler.note e s, journal)

@[simp] theorem solve_recording (sampler : Sampler σ) (s : σ) (journal : Journal) :
    sampler.recording.solve (s, journal) =
      ((sampler.solve s).1, (sampler.solve s).2, journal ++ [.solved (sampler.solve s).1]) := rfl

@[simp] theorem mutate_recording (sampler : Sampler σ) (sample : Tree) (s : σ)
    (journal : Journal) :
    sampler.recording.mutate sample (s, journal) =
      ((sampler.mutate sample s).1, (sampler.mutate sample s).2,
        journal ++ [.mutated sample (sampler.mutate sample s).1]) := rfl

@[simp] theorem classify_recording (sampler : Sampler σ) (sample : Tree) (s : σ)
    (journal : Journal) :
    sampler.recording.classify sample (s, journal) =
      ((sampler.classify sample s).1, (sampler.classify sample s).2,
        journal ++ [.judged sample (sampler.classify sample s).1]) := rfl

@[simp] theorem note_recording (sampler : Sampler σ) (e : Event) (s : σ) (journal : Journal) :
    sampler.recording.note e (s, journal) = (sampler.note e s, journal) := rfl

/-- The judge gives a verdict on every sample, whatever the state. -/
def NeverFails (sampler : Sampler σ) : Prop :=
  ∀ sample s, ∃ triggered, (sampler.classify sample s).1 = .ok triggered

/-- The sampler that answers what a list says, and refuses when the list is used up.  Its judge
asks a question about the sample. -/
def scripted (triggers : Tree → Bool) : Sampler (List (Except SolverError Tree)) where
  solve
    | [] => (.error .exhausted, [])
    | answer :: later => (answer, later)
  mutate _
    | [] => (.error .exhausted, [])
    | answer :: later => (answer, later)
  classify sample later := (.ok (triggers sample), later)
  note _ later := later

theorem neverFails_scripted (triggers : Tree → Bool) : (scripted triggers).NeverFails :=
  fun sample _ => ⟨triggers sample, rfl⟩

end Sampler

namespace Discovery

variable {σ α : Type} {sampler : Sampler σ}

/-- **Recording does not change what is recorded:** with a journal, a task comes to the same
result and state, and the part that it adds to the journal is true and as it is described. -/
def Recorded (sampler : Sampler σ) (describes : Journal → Except ConditionError α → Prop)
    (out : Except ConditionError α × σ) (journal : Journal)
    (recorded : Except ConditionError α × σ × Journal) : Prop :=
  ∃ part, recorded = (out.1, out.2, journal ++ part) ∧
    (∀ entry ∈ part, entry.Genuine sampler) ∧ describes part out.1

/-- What is recorded later is recorded behind what has been recorded. -/
theorem Recorded.prepend {describes later : Journal → Except ConditionError α → Prop}
    {out : Except ConditionError α × σ} {journal front : Journal}
    {recorded : Except ConditionError α × σ × Journal}
    (h : Recorded sampler later out (journal ++ front) recorded)
    (genuine : ∀ entry ∈ front, entry.Genuine sampler)
    (extend : ∀ part, later part out.1 → describes (front ++ part) out.1) :
    Recorded sampler describes out journal recorded := by
  obtain ⟨part, same, genuine', described⟩ := h
  refine ⟨front ++ part, ?_, fun entry mem => ?_, extend part described⟩
  · rw [same, List.append_assoc]
  · exact (List.mem_append.1 mem).elim (genuine entry) (genuine' entry)

/-- A judge that never fails leaves no failure in a true journal. -/
theorem noMisuse_of_genuine (never : sampler.NeverFails) {journal : Journal}
    (genuine : ∀ entry ∈ journal, entry.Genuine sampler) : journal.NoMisuse := by
  intro sample e mem
  obtain ⟨s, failed⟩ := genuine _ mem
  obtain ⟨triggered, judged⟩ := never sample s
  rw [failed] at judged
  cases judged

/-- The journal of a discovery. -/
def journal (sampler : Sampler σ) (settings : SuiteSettings) (s : σ) : Journal :=
  (run sampler.recording settings (s, [])).2.2

end Discovery

end PreconditionMining
