/-
# Classifications without levels

`ObservedTest.classify` goes down a number of levels that is known to be enough.
How many they are does not show: a level that is enough gives what every higher
one gives (`classifyWithin_mono`), so a classification is what its parts say
(`classify_eq`), namely to observe the condition, to run the body, where nested
inputs are classified in the same way, to read the condition and to release it.
-/

import PreconditionMining.Testing.Classification

namespace PreconditionMining

/-- A script that comes to an end does so alike where its calls have all these answers and more. -/
theorem Script.run_mono {call call' : ObservedTest → String → World → Option Outcome}
    {register : List ObservedTest}
    (more : ∀ t input w out, call t input w = some out → call' t input w = some out) :
    ∀ (s : Script) (w : World) (r : World × List Deed),
      s.run call register w = some r → s.run call' register w = some r
  | .done, _, _, h => h
  | .trigger p times next, w, r, h => by
    unfold run at h ⊢
    obtain ⟨r', ran, rfl⟩ := Option.map_eq_some_iff.1 h
    rw [Script.run_mono more next _ r' ran]
    rfl
  | .classify t input next, w, r, h => by
    unfold run at h ⊢
    split at h
    · exact h
    · next test found =>
      split at h
      · cases h
      · next inner called =>
        obtain ⟨r', ran, rfl⟩ := Option.map_eq_some_iff.1 h
        rw [more test input w inner called]
        simp only
        rw [Script.run_mono more (next inner.verdict) _ r' ran]
        rfl

namespace ObservedTest

variable {register : List ObservedTest} {t : ObservedTest} {input : String} {w : World}
  {out : Outcome}

theorem classifyWithin_succ (level : Nat) (t : ObservedTest) (input : String) (w : World)
    (out : Outcome) (h : classifyWithin register level t input w = some out) :
    classifyWithin register (level + 1) t input w = some out := by
  induction level generalizing t input w out with
  | zero => cases h
  | succ level ih =>
    unfold classifyWithin at h ⊢
    split at h
    · exact h
    · next o w' granted =>
      obtain ⟨r, ran, rfl⟩ := Option.map_eq_some_iff.1 h
      rw [Script.run_mono ih (t.body input) w' r ran]
      rfl

/-- **A level that is enough gives what every higher one gives.** -/
theorem classifyWithin_mono {level higher : Nat} (le : level ≤ higher)
    (h : classifyWithin register level t input w = some out) :
    classifyWithin register higher t input w = some out := by
  induction le with
  | refl => exact h
  | step _ ih => exact classifyWithin_succ _ t input w out ih

theorem classifyWithin_eq_classify (register : List ObservedTest) (t : ObservedTest)
    (input : String) (w : World) :
    classifyWithin register (levels register t) t input w = some (classify register t input w) := by
  rw [classify, Option.some_get]

/-- Whatever level answers, the answer is the classification. -/
theorem classify_of_classifyWithin {level : Nat}
    (h : classifyWithin register level t input w = some out) :
    classify register t input w = out := by
  have own := classifyWithin_eq_classify register t input w
  rcases Nat.le_total level (levels register t) with le | le
  · rw [classifyWithin_mono le h] at own
    exact (Option.some.inj own).symm
  · rw [classifyWithin_mono le own] at h
    exact Option.some.inj h

/-- A body runs on its input as the script says, each nested input being classified. -/
theorem run_classifyWithin {level : Nat} {r : World × List Deed}
    (ran : (t.body input).run (classifyWithin register level) register w = some r) :
    runBody register t input w = r := by
  have total : (t.body input).run (fun s i v => some (classify register s i v)) register w = some r :=
    Script.run_mono (fun _ _ _ _ h => congrArg some (classify_of_classifyWithin h)) _ w r ran
  rw [runBody, total]
  rfl

/-- **A classification is what its parts say.** -/
theorem classify_eq (register : List ObservedTest) (t : ObservedTest) (input : String) (w : World) :
    classify register t input w =
      match t.condition.observe w with
      | (.error e, w') => ⟨.error e, w', []⟩
      | (.ok o, w') =>
        let (w'', deeds) := runBody register t input w'
        ⟨.ok (o.triggered w''), o.release w'', deeds⟩ := by
  have own := classifyWithin_eq_classify register t input w
  unfold levels classifyWithin at own
  rcases observed : t.condition.observe w with ⟨e | o, w'⟩
  · rw [observed] at own
    exact (Option.some.inj own).symm
  · rw [observed] at own
    obtain ⟨r, ran, same⟩ := Option.map_eq_some_iff.1 own
    simp only
    rw [run_classifyWithin ran]
    exact same.symm

end ObservedTest

end PreconditionMining
