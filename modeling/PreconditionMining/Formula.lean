/-
# Formulas

A formula is an atom, whose text only solvers and learners understand, or a
conjunction of formulas.  Conjunctions are all that the harness builds: it joins
the base formula of a suite with a learned precondition.

`atoms` is the list of atoms from left to right; joining two formulas joins
their atoms (`atoms_conjoin`).
-/

namespace PreconditionMining

/-- A constraint on samples. -/
inductive Formula
  | atom (text : String)
  | all (parts : List Formula)

namespace Formula

instance : Inhabited Formula := ⟨all []⟩

mutual

/-- Decides equality of formulas. -/
def decEq : (f g : Formula) → Decidable (f = g)
  | atom a, atom b => decidable_of_iff (a = b) (by simp)
  | all fs, all gs =>
    have := decEqAll fs gs
    decidable_of_iff (fs = gs) (by simp)
  | atom _, all _ => isFalse (by simp)
  | all _, atom _ => isFalse (by simp)

/-- Decides equality of lists of formulas. -/
def decEqAll : (fs gs : List Formula) → Decidable (fs = gs)
  | [], [] => isTrue rfl
  | [], _ :: _ => isFalse (by simp)
  | _ :: _, [] => isFalse (by simp)
  | f :: fs, g :: gs =>
    have := decEq f g
    have := decEqAll fs gs
    decidable_of_iff (f = g ∧ fs = gs) (by simp)

end

instance : DecidableEq Formula := decEq

/-- The formulas that a formula is the conjunction of: an atom stands for itself. -/
def conjuncts : Formula → List Formula
  | atom t => [atom t]
  | all parts => parts

/-- The conjunction of two formulas; a conjunction contributes its parts. -/
def conjoin (f g : Formula) : Formula := all (f.conjuncts ++ g.conjuncts)

/-- A precondition under a base formula, if there is one. -/
def constrain (base : Option Formula) (precondition : Formula) : Formula :=
  match base with
  | none => precondition
  | some f => f.conjoin precondition

mutual

/-- The atoms from left to right. -/
def atoms : Formula → List String
  | atom t => [t]
  | all parts => atomsAll parts

/-- The atoms of a list of formulas from left to right. -/
def atomsAll : List Formula → List String
  | [] => []
  | f :: fs => atoms f ++ atomsAll fs

end

mutual

/-- Whether a formula holds when a reading of its atoms is given. -/
def eval (holds : String → Bool) : Formula → Bool
  | atom t => holds t
  | all parts => evalAll holds parts

/-- Whether all formulas of a list hold. -/
def evalAll (holds : String → Bool) : List Formula → Bool
  | [] => true
  | f :: fs => eval holds f && evalAll holds fs

end

mutual

/-- The text: an atom as it is, the parts of a conjunction in parentheses. -/
def text : Formula → String
  | atom t => t
  | all parts => String.intercalate " and " (texts parts)

/-- The texts of the parts of a conjunction, in parentheses. -/
def texts : List Formula → List String
  | [] => []
  | f :: fs => ("(" ++ text f ++ ")") :: texts fs

end

theorem atomsAll_append (fs gs : List Formula) :
    atomsAll (fs ++ gs) = atomsAll fs ++ atomsAll gs := by
  induction fs with
  | nil => rfl
  | cons f fs ih => simp [atomsAll, ih]

theorem atomsAll_conjuncts (f : Formula) : atomsAll f.conjuncts = f.atoms := by
  cases f <;> simp [conjuncts, atomsAll, atoms]

/-- **Joining formulas joins their atoms.** -/
@[simp] theorem atoms_conjoin (f g : Formula) : (f.conjoin g).atoms = f.atoms ++ g.atoms := by
  simp [conjoin, atoms, atomsAll_append, atomsAll_conjuncts]

mutual

/-- **A formula holds when and only when all its atoms do.** -/
theorem eval_eq_all_atoms (holds : String → Bool) :
    ∀ f : Formula, f.eval holds = f.atoms.all holds
  | atom t => by simp [eval, atoms]
  | all parts => by simpa [eval, atoms] using evalAll_eq_all_atomsAll holds parts

theorem evalAll_eq_all_atomsAll (holds : String → Bool) :
    ∀ fs : List Formula, evalAll holds fs = (atomsAll fs).all holds
  | [] => rfl
  | f :: fs => by
    simp [evalAll, atomsAll, eval_eq_all_atoms holds f, evalAll_eq_all_atomsAll holds fs]

end

end Formula

end PreconditionMining
