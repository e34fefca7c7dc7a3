/-
# Constraints

The fuzzer knows the atoms of formulas as named yes-or-no checks of samples.  A
formula is compiled by looking up its atoms from left to right; the first atom
without a check is the failure.  A compiled formula holds of a sample when all
its checks do.
-/

import PreconditionMining.Dictionary
import PreconditionMining.Formula
import PreconditionMining.Solver.Error
import PreconditionMining.Tree

namespace PreconditionMining

/-- Checks of samples by name. -/
abbrev Constraints := Dictionary (Tree → Bool)

/-- A formula that is ready to be checked. -/
structure CompiledFormula where
  /-- The text of the formula; nothing where no formula was given. -/
  source : Option String
  checks : List (Tree → Bool)

namespace CompiledFormula

/-- Whether a sample passes all checks. -/
def holds (f : CompiledFormula) (sample : Tree) : Bool := f.checks.all fun check => check sample

/-- Whether there is nothing to check. -/
def isTrivial (f : CompiledFormula) : Bool := f.checks.isEmpty

/-- The text of the formula. -/
def text (f : CompiledFormula) : String := f.source.getD "true"

end CompiledFormula

namespace Constraints

/-- The checks of some atoms, or the first atom that has none. -/
def checksOf (constraints : Constraints) : List String → Except SolverError (List (Tree → Bool))
  | [] => .ok []
  | a :: rest =>
    match constraints.find? a with
    | none => .error (.unsupportedFormula a)
    | some check => (checksOf constraints rest).map (check :: ·)

/-- Makes a formula ready to be checked; without a formula everything is allowed. -/
def compile (constraints : Constraints) : Option Formula → Except SolverError CompiledFormula
  | none => .ok ⟨none, []⟩
  | some f => (constraints.checksOf f.atoms).map fun checks => ⟨some f.text, checks⟩

/-- Atoms without a check are the only fault of a list of atoms. -/
theorem exists_atom_of_checksOf {constraints : Constraints} {e : SolverError} :
    ∀ {atoms : List String}, constraints.checksOf atoms = .error e →
      ∃ atom, e = .unsupportedFormula atom
  | [], h => by cases h
  | a :: rest, h => by
    unfold checksOf at h
    split at h
    · exact ⟨a, (Except.error.inj h).symm⟩
    · cases later : constraints.checksOf rest with
      | ok checks => rw [later] at h; cases h
      | error e' =>
        rw [later] at h
        obtain rfl := Except.error.inj h
        exact exists_atom_of_checksOf later

/-- **A formula is refused only for an atom** that has no check. -/
theorem exists_atom_of_compile {constraints : Constraints} {e : SolverError} :
    ∀ {formula : Option Formula}, constraints.compile formula = .error e →
      ∃ atom, e = .unsupportedFormula atom
  | none, h => by cases h
  | some f, h => by
    rw [compile] at h
    cases found : constraints.checksOf f.atoms with
    | ok checks => rw [found] at h; cases h
    | error e' =>
      rw [found] at h
      obtain rfl := Except.error.inj h
      exact exists_atom_of_checksOf found

end Constraints

end PreconditionMining
