/-
# Discoveries that keep to certain states

What a discovery comes to depends on its sampler's answers in the states that it
goes through, and not on those elsewhere.  A sampler may live in fewer states
than another one and answer there as the other does (`Sampler.Embeds`); then a
discovery with either comes to the same (`run_embeds`), which is proved by
following its loops.

Where each call keeps a property of the states, the sampler can be confined to
the states that have it (`Sampler.confine`).  So the whole discovery keeps the
property (`good_run`), and for the discovery to succeed it is enough that the
judge gives a verdict in those states (`run_isOk`).

Two samplers that answer alike in related states, and stay in related states
(`Sampler.Similar`), can be followed at once (`Sampler.both`).  So discoveries with
either come to the same (`run_similar`).
-/

import PreconditionMining.Proofs.Discovery.Filing

namespace PreconditionMining

open Discovery

namespace Sampler

variable {σ τ : Type}

/-- A sampler answers as another one does in the states that its own stand for. -/
structure Embeds (inner : Sampler τ) (f : τ → σ) (sampler : Sampler σ) : Prop where
  solve : ∀ s, sampler.solve (f s) = ((inner.solve s).1, f (inner.solve s).2)
  mutate : ∀ sample s, sampler.mutate sample (f s) =
    ((inner.mutate sample s).1, f (inner.mutate sample s).2)
  classify : ∀ sample s, sampler.classify sample (f s) =
    ((inner.classify sample s).1, f (inner.classify sample s).2)
  note : ∀ e s, sampler.note e (f s) = f (inner.note e s)

/-- Each call keeps a property of the states. -/
structure Keeps (sampler : Sampler σ) (good : σ → Prop) : Prop where
  solve : ∀ s, good s → good (sampler.solve s).2
  mutate : ∀ sample s, good s → good (sampler.mutate sample s).2
  classify : ∀ sample s, good s → good (sampler.classify sample s).2
  note : ∀ e s, good s → good (sampler.note e s)

/-- The sampler in the states that have a property which each call keeps. -/
def confine (sampler : Sampler σ) {good : σ → Prop} (keeps : sampler.Keeps good) :
    Sampler {s // good s} where
  solve s := ((sampler.solve s.1).1, ⟨(sampler.solve s.1).2, keeps.solve s.1 s.2⟩)
  mutate sample s :=
    ((sampler.mutate sample s.1).1, ⟨(sampler.mutate sample s.1).2, keeps.mutate sample s.1 s.2⟩)
  classify sample s :=
    ((sampler.classify sample s.1).1,
      ⟨(sampler.classify sample s.1).2, keeps.classify sample s.1 s.2⟩)
  note e s := ⟨sampler.note e s.1, keeps.note e s.1 s.2⟩

theorem embeds_confine (sampler : Sampler σ) {good : σ → Prop} (keeps : sampler.Keeps good) :
    (sampler.confine keeps).Embeds Subtype.val sampler where
  solve _ := rfl
  mutate _ _ := rfl
  classify _ _ := rfl
  note _ _ := rfl

/-- Two samplers answer alike in states that a relation ties, and come to states that it ties. -/
structure Similar (left : Sampler σ) (right : Sampler τ) (R : σ → τ → Prop) : Prop where
  solve : ∀ {s t}, R s t →
    (left.solve s).1 = (right.solve t).1 ∧ R (left.solve s).2 (right.solve t).2
  mutate : ∀ sample {s t}, R s t →
    (left.mutate sample s).1 = (right.mutate sample t).1 ∧
      R (left.mutate sample s).2 (right.mutate sample t).2
  classify : ∀ sample {s t}, R s t →
    (left.classify sample s).1 = (right.classify sample t).1 ∧
      R (left.classify sample s).2 (right.classify sample t).2
  note : ∀ e {s t}, R s t → R (left.note e s) (right.note e t)

section Both

variable {left : Sampler σ} {right : Sampler τ} {R : σ → τ → Prop}

/-- Two similar samplers at once, in the pairs of tied states. -/
def both (similar : left.Similar right R) : Sampler {p : σ × τ // R p.1 p.2} where
  solve p :=
    ((left.solve p.1.1).1, ⟨((left.solve p.1.1).2, (right.solve p.1.2).2), (similar.solve p.2).2⟩)
  mutate sample p :=
    ((left.mutate sample p.1.1).1,
      ⟨((left.mutate sample p.1.1).2, (right.mutate sample p.1.2).2),
        (similar.mutate sample p.2).2⟩)
  classify sample p :=
    ((left.classify sample p.1.1).1,
      ⟨((left.classify sample p.1.1).2, (right.classify sample p.1.2).2),
        (similar.classify sample p.2).2⟩)
  note e p := ⟨(left.note e p.1.1, right.note e p.1.2), similar.note e p.2⟩

theorem embeds_both_left (similar : left.Similar right R) :
    (both similar).Embeds (fun p => p.1.1) left where
  solve _ := rfl
  mutate _ _ := rfl
  classify _ _ := rfl
  note _ _ := rfl

theorem embeds_both_right (similar : left.Similar right R) :
    (both similar).Embeds (fun p => p.1.2) right where
  solve p := Prod.ext (similar.solve p.2).1.symm rfl
  mutate sample p := Prod.ext (similar.mutate sample p.2).1.symm rfl
  classify sample p := Prod.ext (similar.classify sample p.2).1.symm rfl
  note _ _ := rfl

end Both

end Sampler

namespace Discovery

variable {σ τ : Type} {inner : Sampler τ} {f : τ → σ} {sampler : Sampler σ}

theorem explore_embeds (h : inner.Embeds f sampler) (quota : Nat) :
    ∀ (tries : Nat) (pools : Pools) (s : τ),
      explore sampler quota tries pools (f s) =
        ((explore inner quota tries pools s).1, f (explore inner quota tries pools s).2)
  | 0, _, _ => rfl
  | tries + 1, pools, s => by
    rw [explore, explore]
    split
    · rfl
    · rw [h.solve]
      rcases inner.solve s with ⟨e | sample, s'⟩
      · simp only [h.note]
      · simp only [h.classify]
        rcases inner.classify sample s' with ⟨e | triggered, s''⟩
        · rfl
        · exact explore_embeds h quota tries (pools.push sample triggered) s''

theorem sweep_embeds (h : inner.Embeds f sampler) :
    ∀ (samples : List Tree) (mutants : Pools) (s : τ),
      sweep sampler samples mutants (f s) =
        ((sweep inner samples mutants s).1, f (sweep inner samples mutants s).2)
  | [], _, _ => rfl
  | sample :: rest, mutants, s => by
    rw [sweep, sweep, h.mutate]
    rcases inner.mutate sample s with ⟨e | mutant, s'⟩
    · rfl
    · simp only [h.classify]
      rcases inner.classify mutant s' with ⟨e | triggered, s''⟩
      · rfl
      · exact sweep_embeds h rest (mutants.push mutant triggered) s''

theorem sweeps_embeds (h : inner.Embeds f sampler) (target : Nat) :
    ∀ (tries made : Nat) (pools : Pools) (s : τ),
      sweeps sampler target tries made pools (f s) =
        ((sweeps inner target tries made pools s).1, f (sweeps inner target tries made pools s).2)
  | 0, _, _, _ => rfl
  | tries + 1, made, pools, s => by
    rw [sweeps, sweeps]
    split
    · rfl
    split
    · rw [h.note]
    rw [sweep_embeds h]
    rcases sweep inner pools.toList .empty s with ⟨e | ⟨mutants, _ | e⟩, s'⟩
    · rfl
    · simp only [h.note]
      rw [sweeps_embeds h target tries]
      generalize sweeps inner target tries _ _ _ = rest
      rcases rest with ⟨e | swept, s''⟩ <;> rfl
    · simp only [h.note]

/-- **A discovery comes to the same** with a sampler that lives in fewer states. -/
theorem run_embeds (h : inner.Embeds f sampler) (settings : SuiteSettings) (s : τ) :
    run sampler settings (f s) = ((run inner settings s).1, f (run inner settings s).2) := by
  have mutates : ∀ found s', mutation sampler settings found (f s') =
      ((mutation inner settings found s').1, f (mutation inner settings found s').2) := by
    intro found s'
    rw [mutation, mutation, sweeps_embeds h]
    rcases sweeps inner settings.targetNumSamples settings.numTries 0 found s' with ⟨e | r, s''⟩ <;>
      rfl
  rw [run, run, explore_embeds h]
  rcases explore inner settings.initialTarget settings.numTries .empty s with
    ⟨e | ⟨found, refusal⟩, s'⟩
  · rfl
  · rcases refusal with _ | (_ | _ | _ | _ | _)
    · exact mutates found s'
    · exact mutates found s'
    all_goals rfl

/-- **A discovery keeps what each call keeps.** -/
theorem good_run {good : σ → Prop} (keeps : sampler.Keeps good) (settings : SuiteSettings) {s : σ}
    (h : good s) : good (run sampler settings s).2 := by
  have same := run_embeds (sampler.embeds_confine keeps) settings ⟨s, h⟩
  rw [same]
  exact (run (sampler.confine keeps) settings ⟨s, h⟩).2.2

/-- **A discovery succeeds** where the judge does not fail in the states that it goes through. -/
theorem run_isOk {good : σ → Prop} (keeps : sampler.Keeps good)
    (sure : ∀ sample s, good s → ∃ triggered, (sampler.classify sample s).1 = .ok triggered)
    (settings : SuiteSettings) {s : σ} (h : good s) :
    ∃ d, (run sampler settings s).1 = .ok d := by
  have same := run_embeds (sampler.embeds_confine keeps) settings ⟨s, h⟩
  have never : (sampler.confine keeps).NeverFails := fun sample v => sure sample v.1 v.2
  obtain ⟨d, -, -, ok, -⟩ := exists_ok_course never settings ⟨s, h⟩
  exact ⟨d, by rw [same, ok]⟩

/-- **Discoveries with similar samplers come to the same,** in states that are tied again. -/
theorem run_similar {left : Sampler σ} {right : Sampler τ} {R : σ → τ → Prop}
    (similar : left.Similar right R) (settings : SuiteSettings) {s : σ} {t : τ} (tied : R s t) :
    (run left settings s).1 = (run right settings t).1 ∧
      R (run left settings s).2 (run right settings t).2 := by
  have onLeft := run_embeds (Sampler.embeds_both_left similar) settings ⟨(s, t), tied⟩
  have onRight := run_embeds (Sampler.embeds_both_right similar) settings ⟨(s, t), tied⟩
  simp only at onLeft onRight
  rw [onLeft, onRight]
  exact ⟨rfl, (run (Sampler.both similar) settings ⟨(s, t), tied⟩).2.2⟩

end Discovery

end PreconditionMining
