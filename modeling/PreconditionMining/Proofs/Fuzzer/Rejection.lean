/-
# Drawing until a sample fits

A solving call derives one tree after another from the start symbol and returns the first
that satisfies the formula.  Where samples may repeat and there is no time budget that is
all it does (`solve_eq_find?`).  So such a call fails only when it made all the derivations
that it may make and none of them satisfied the formula (`Barren`), and it never says that
there is nothing new.

The formula is checked atom by atom.  It is compiled when each atom is registered, and what
holds of a sample then are the checks of all its atoms (`Constraints.exists_compile_iff`,
`Constraints.holds_compile`).  With a finite derivation of the start symbol that is enough
to build a fuzzer (`exists_build_iff`).
-/

import PreconditionMining.Proofs.Fuzzer.Solving
import PreconditionMining.Proofs.Fuzzer.Soundness
import PreconditionMining.Proofs.Grammar.Language

namespace PreconditionMining

/-- The atoms of a formula, if there is one. -/
def Formula.atomsOf : Option Formula → List String
  | none => []
  | some f => f.atoms

/-- **A precondition under a base formula has the atoms of both.** -/
theorem Formula.atoms_constrain (base : Option Formula) (precondition : Formula) :
    (constrain base precondition).atoms = atomsOf base ++ precondition.atoms := by
  cases base with
  | none => rfl
  | some f => exact atoms_conjoin f precondition

namespace Constraints

/-- All of some atoms are registered, and their checks pass. -/
def Pass (constraints : Constraints) (atoms : List String) (sample : Tree) : Prop :=
  ∀ atom ∈ atoms, ∃ check, constraints.find? atom = some check ∧ check sample = true

/-- Atoms have their checks when all of them are registered. -/
theorem exists_checksOf_iff {constraints : Constraints} {atoms : List String} :
    (∃ checks, constraints.checksOf atoms = .ok checks) ↔
      ∀ atom ∈ atoms, constraints.find? atom ≠ none := by
  induction atoms with
  | nil => exact ⟨fun _ => nofun, fun _ => ⟨[], rfl⟩⟩
  | cons a rest ih =>
    rw [checksOf, List.forall_mem_cons, ← ih]
    cases constraints.find? a with
    | none => simp
    | some check =>
      cases constraints.checksOf rest with
      | error e => simp [Except.map]
      | ok checks => simp [Except.map]

/-- All checks pass when those of all atoms do. -/
theorem all_checksOf {constraints : Constraints} {atoms : List String}
    {checks : List (Tree → Bool)} (found : constraints.checksOf atoms = .ok checks)
    (sample : Tree) :
    (checks.all fun check => check sample) = true ↔ constraints.Pass atoms sample := by
  induction atoms generalizing checks with
  | nil =>
    obtain rfl := Except.ok.inj found
    exact ⟨fun _ => nofun, fun _ => rfl⟩
  | cons a rest ih =>
    rw [checksOf] at found
    rw [Pass, List.forall_mem_cons]
    cases registered : constraints.find? a with
    | none =>
      rw [registered] at found
      cases found
    | some check =>
      rw [registered] at found
      cases others : constraints.checksOf rest with
      | error e =>
        simp only [others] at found
        cases found
      | ok later =>
        simp only [others] at found
        obtain rfl := Except.ok.inj found
        rw [List.all_cons, Bool.and_eq_true, ih others, Pass]
        simp

/-- **A formula is compiled when all its atoms are registered.** -/
theorem exists_compile_iff {constraints : Constraints} {formula : Option Formula} :
    (∃ compiled, constraints.compile formula = .ok compiled) ↔
      ∀ atom ∈ Formula.atomsOf formula, constraints.find? atom ≠ none := by
  cases formula with
  | none => exact ⟨fun _ => nofun, fun _ => ⟨_, rfl⟩⟩
  | some f =>
    rw [Formula.atomsOf, ← exists_checksOf_iff, compile]
    cases constraints.checksOf f.atoms with
    | error e => simp [Except.map]
    | ok checks => simp [Except.map]

/-- **A compiled formula holds of a sample when the checks of all its atoms pass.** -/
theorem holds_compile {constraints : Constraints} {formula : Option Formula}
    {compiled : CompiledFormula} (done : constraints.compile formula = .ok compiled)
    (sample : Tree) :
    compiled.holds sample = true ↔ constraints.Pass (Formula.atomsOf formula) sample := by
  cases formula with
  | none =>
    obtain rfl := Except.ok.inj done
    exact ⟨fun _ => nofun, fun _ => rfl⟩
  | some f =>
    rw [compile] at done
    cases found : constraints.checksOf f.atoms with
    | error e =>
      rw [found] at done
      cases done
    | ok checks =>
      rw [found] at done
      obtain rfl := Except.ok.inj done
      exact all_checksOf found sample

end Constraints

namespace Fuzzer

variable {ρ : Type} {chooser : Chooser ρ}

/-- **A fuzzer is built** where all atoms are registered and the start symbol has a finite
derivation. -/
theorem exists_build_iff {g : Grammar} {formula : Option Formula} {options : SolverOptions}
    {constraints : Constraints} {draws : ρ} :
    (∃ f, build g formula options constraints draws = .ok f) ↔
      (∀ atom ∈ Formula.atomsOf formula, constraints.find? atom ≠ none) ∧
        ∃ t, g.IsTreeOf startSymbol t := by
  rw [← Constraints.exists_compile_iff, ← Grammar.exists_depth_iff, build]
  cases constraints.compile formula with
  | error e => simp
  | ok compiled =>
    rw [Dictionary.contains]
    cases g.minDepths.find? startSymbol with
    | none => simp
    | some d => simp

/-- What a fuzzer that was built has to check. -/
theorem compile_of_build {g : Grammar} {formula : Option Formula} {options : SolverOptions}
    {constraints : Constraints} {draws : ρ} {f : Fuzzer ρ}
    (built : build g formula options constraints draws = .ok f) :
    constraints.compile formula = .ok f.formula := by
  unfold build at built
  split at built
  · cases built
  · next compiled done =>
    split at built
    · obtain rfl := Except.ok.inj built
      exact done
    · cases built

/-- **A solving call is barren:** it makes as many derivations as it may, and none of them
satisfies the formula. -/
def Barren (chooser : Chooser ρ) (f : Fuzzer ρ) : Prop :=
  ∀ t ∈ f.derivations chooser f.options.maxAttempts, f.formula.holds t = false

/-- **A solving call returns the first derivation that satisfies the formula,** where samples may
repeat and there is no time budget. -/
theorem solve_eq_find? {f : Fuzzer ρ} (repeats : f.options.distinct = false)
    (timeless : f.options.timeoutMs = none) :
    (f.solve chooser).answer =
      match (f.derivations chooser f.options.maxAttempts).find? f.formula.holds with
      | some t => .ok t
      | none => .error (.noSample f.formula.text f.options.maxAttempts) := by
  have unspent := expired?_eq_none timeless
  cases found : (f.derivations chooser f.options.maxAttempts).find? f.formula.holds with
  | none =>
    have violate := List.find?_eq_none.1 found
    have passed := fun s mem => mt (accepts_iff_holds repeats).1 (violate s mem)
    rw [solve, solveWithin_of_none unspent passed, List.countP_eq_zero.2 violate]
    have task := sameTask_afterDerivations chooser f.options.maxAttempts f
    have uncounted : ¬ (0 : Int32) < 0 + .ofNat 0 := by decide
    rw [exhausted, if_neg uncounted, task.formula, task.options]
  | some t =>
    obtain ⟨fits, earlier, later, drawn, violate⟩ := List.find?_eq_some_iff_append.1 found
    have first : f.FirstAccepted (f.derivations chooser f.options.maxAttempts) earlier t := by
      refine ⟨⟨later, drawn⟩, fun s mem => ?_, (accepts_iff_holds repeats).2 fits⟩
      rw [accepts_iff_holds repeats]
      simpa using violate s mem
    rw [solve_of_first unspent first]

section Repeating

variable (chooser) {f : Fuzzer ρ} (repeats : f.options.distinct = false)
  (timeless : f.options.timeoutMs = none)

include repeats timeless

/-- Such a call returns what satisfies the formula, or it is barren. -/
theorem solve_cases :
    (∃ t, (f.solve chooser).answer = .ok t ∧ f.formula.holds t = true ∧ ¬ f.Barren chooser) ∨
      (f.solve chooser).answer = .error (.noSample f.formula.text f.options.maxAttempts) ∧
        f.Barren chooser := by
  rw [solve_eq_find? repeats timeless]
  cases found : (f.derivations chooser f.options.maxAttempts).find? f.formula.holds with
  | none =>
    refine .inr ⟨rfl, fun t mem => ?_⟩
    simpa using List.find?_eq_none.1 found t mem
  | some t =>
    have fits := List.find?_some found
    refine .inl ⟨t, rfl, fits, fun barren => ?_⟩
    rw [barren t (List.mem_of_find?_eq_some found)] at fits
    cases fits

/-- **What such a call returns satisfies the formula.** -/
theorem holds_of_solve {t : Tree} (ok : (f.solve chooser).answer = .ok t) :
    f.formula.holds t = true := by
  obtain ⟨u, answer, fits, -⟩ | ⟨answer, -⟩ := solve_cases chooser repeats timeless
  · rw [answer] at ok
    exact Except.ok.inj ok ▸ fits
  · rw [answer] at ok
    cases ok

/-- **Such a call fails exactly when it is barren.** -/
theorem solve_fails_iff :
    (¬ ∃ t, (f.solve chooser).answer = .ok t) ↔ f.Barren chooser := by
  obtain ⟨t, answer, -, fertile⟩ | ⟨answer, barren⟩ := solve_cases chooser repeats timeless
  · exact ⟨fun fails => absurd ⟨t, answer⟩ fails, fun barren => absurd barren fertile⟩
  · refine ⟨fun _ => barren, fun _ ⟨t, ok⟩ => ?_⟩
    rw [answer] at ok
    cases ok

/-- **Such a call never says that there is nothing new.** -/
theorem solve_ne_exhausted : (f.solve chooser).answer ≠ .error .exhausted := by
  obtain ⟨t, answer, -⟩ | ⟨answer, -⟩ := solve_cases chooser repeats timeless
  · rw [answer]
    intro same
    cases same
  · rw [answer]
    intro same
    cases same

end Repeating

end Fuzzer

end PreconditionMining
