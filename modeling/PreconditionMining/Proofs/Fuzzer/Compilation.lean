/-
# Compiling conjunctions

A formula is compiled by way of the list of its atoms, in which the nesting of
conjunctions is gone.  Nothing of its meaning is lost: the compiled formula holds of
a sample when the formula, evaluated part by part, does (`Constraints.holds_eq_eval`),
and a formula is refused for the first of its atoms that has no check
(`Constraints.compile_eq_error_iff`).

A precondition under a base formula has the atoms of the base first.  So compiling
it is compiling the base, compiling the precondition and putting the checks
together, where the failure of the base comes first
(`Constraints.compile_constrain`).

`Constraints.conjoining_preserves_meaning` says all this together.
-/

import PreconditionMining.Proofs.Fuzzer.Rejection

namespace PreconditionMining

/-- **Joining formulas is associative,** not only in its meaning. -/
theorem Formula.conjoin_assoc (a b c : Formula) :
    (a.conjoin b).conjoin c = a.conjoin (b.conjoin c) := by
  show all ((a.conjuncts ++ b.conjuncts) ++ c.conjuncts) =
    all (a.conjuncts ++ (b.conjuncts ++ c.conjuncts))
  rw [List.append_assoc]

namespace Constraints

/-- What the check of an atom says of a sample; an atom without a check says no. -/
def judge (constraints : Constraints) (sample : Tree) (atom : String) : Bool :=
  (constraints.find? atom).any fun check => check sample

theorem pass_iff {constraints : Constraints} {atoms : List String} {sample : Tree} :
    constraints.Pass atoms sample ↔ atoms.all (constraints.judge sample) = true := by
  rw [List.all_eq_true]
  refine forall₂_congr fun atom _ => ?_
  rw [judge]
  cases constraints.find? atom <;> simp

/-- **A compiled formula holds of a sample exactly when the formula does,** evaluated part by
part. -/
theorem holds_eq_eval {constraints : Constraints} {f : Formula} {compiled : CompiledFormula}
    (done : constraints.compile (some f) = .ok compiled) (sample : Tree) :
    compiled.holds sample = f.eval (constraints.judge sample) := by
  rw [Bool.eq_iff_iff, holds_compile done sample, pass_iff, Formula.eval_eq_all_atoms]
  rfl

/-- Looking up atoms fails with the first one that has no check. -/
theorem checksOf_eq_error_iff {constraints : Constraints} {atoms : List String} {e : SolverError} :
    constraints.checksOf atoms = .error e ↔
      ∃ atom, atoms.find? (fun a => !constraints.contains a) = some atom ∧
        e = .unsupportedFormula atom := by
  induction atoms with
  | nil => simp [checksOf]
  | cons a rest ih =>
    rw [checksOf, List.find?_cons, Dictionary.contains]
    cases constraints.find? a with
    | none => simp [eq_comm]
    | some check =>
      simp only [Option.isSome_some, Bool.not_true]
      rw [← ih]
      cases constraints.checksOf rest <;> simp [Except.map]

/-- **A formula is refused for its first atom without a check,** from left to right. -/
theorem compile_eq_error_iff {constraints : Constraints} {f : Formula} {e : SolverError} :
    constraints.compile (some f) = .error e ↔
      ∃ atom, f.atoms.find? (fun a => !constraints.contains a) = some atom ∧
        e = .unsupportedFormula atom := by
  rw [← checksOf_eq_error_iff, compile]
  cases constraints.checksOf f.atoms <;> simp [Except.map]

/-- Atoms are looked up one list after another. -/
theorem checksOf_append (constraints : Constraints) (xs ys : List String) :
    constraints.checksOf (xs ++ ys) =
      (constraints.checksOf xs).bind fun first =>
        (constraints.checksOf ys).map fun second => first ++ second := by
  induction xs with
  | nil =>
    rw [List.nil_append]
    cases constraints.checksOf ys <;> rfl
  | cons a rest ih =>
    rw [List.cons_append, checksOf, checksOf]
    cases constraints.find? a with
    | none => rfl
    | some check =>
      simp only [ih]
      cases constraints.checksOf rest with
      | error e => rfl
      | ok first => cases constraints.checksOf ys <;> rfl

/-- **A precondition under a base formula is compiled** by compiling the base, then the
precondition, and putting their checks together. -/
theorem compile_constrain (constraints : Constraints) (base : Option Formula)
    (precondition : Formula) :
    constraints.compile (some (.constrain base precondition)) =
      (constraints.compile base).bind fun b =>
        (constraints.compile (some precondition)).map fun p =>
          ⟨some (Formula.constrain base precondition).text, b.checks ++ p.checks⟩ := by
  cases base with
  | none =>
    rw [compile, compile, compile, Formula.constrain]
    cases constraints.checksOf precondition.atoms <;> rfl
  | some f =>
    rw [compile, compile, compile, Formula.constrain, Formula.atoms_conjoin, checksOf_append]
    cases constraints.checksOf f.atoms with
    | error e => rfl
    | ok first => cases constraints.checksOf precondition.atoms <;> rfl

/-- **Conjoining formulas preserves meaning.**  A formula is compiled exactly when each of its atoms
has a check; otherwise the failure names the first atom, from left to right, that has none; and the
compiled formula holds of a sample exactly when the formula does, evaluated part by part.  A
precondition under a base formula, or under none, is compiled exactly when both are, fails with the
failure of the base where the base fails and with its own otherwise, and holds of a sample exactly
when both do.  Joining is associative. -/
theorem conjoining_preserves_meaning (constraints : Constraints) :
    (∀ f : Formula,
      ((∃ compiled, constraints.compile (some f) = .ok compiled) ↔
        ∀ atom ∈ f.atoms, constraints.find? atom ≠ none) ∧
      (∀ e, constraints.compile (some f) = .error e ↔
        ∃ atom, f.atoms.find? (fun a => !constraints.contains a) = some atom ∧
          e = .unsupportedFormula atom) ∧
      ∀ compiled, constraints.compile (some f) = .ok compiled →
        ∀ sample, compiled.holds sample = f.eval (constraints.judge sample)) ∧
    (∀ (base : Option Formula) (precondition : Formula),
      ((∃ whole, constraints.compile (some (.constrain base precondition)) = .ok whole) ↔
        (∃ b, constraints.compile base = .ok b) ∧
          ∃ p, constraints.compile (some precondition) = .ok p) ∧
      (∀ e, constraints.compile (some (.constrain base precondition)) = .error e ↔
        constraints.compile base = .error e ∨
          (∃ b, constraints.compile base = .ok b) ∧
            constraints.compile (some precondition) = .error e) ∧
      ∀ whole b p, constraints.compile (some (.constrain base precondition)) = .ok whole →
        constraints.compile base = .ok b → constraints.compile (some precondition) = .ok p →
          ∀ sample, whole.holds sample = (b.holds sample && p.holds sample)) ∧
    ∀ a b c : Formula, (a.conjoin b).conjoin c = a.conjoin (b.conjoin c) := by
  refine ⟨fun f => ⟨exists_compile_iff, fun e => compile_eq_error_iff,
    fun compiled done => holds_eq_eval done⟩, fun base precondition => ?_, Formula.conjoin_assoc⟩
  rw [compile_constrain]
  cases first : constraints.compile base with
  | error e => simp [Except.bind, eq_comm]
  | ok b =>
    cases second : constraints.compile (some precondition) with
    | error e => simp [Except.bind, Except.map, eq_comm]
    | ok p =>
      refine ⟨by simp [Except.bind, Except.map], by simp [Except.bind, Except.map], ?_⟩
      intro whole b' p' done same same' sample
      obtain rfl := Except.ok.inj done
      obtain rfl := Except.ok.inj same
      obtain rfl := Except.ok.inj same'
      exact List.all_append

end Constraints

end PreconditionMining
