/-
# Flat conjunctions

Joining two formulas takes a conjunction apart into its parts and no further.  So a
conjunction among these parts stays what it is, and whether a joined formula is flat is
settled by the two that it was joined from: `Formula.flat_conjoin_iff`.

A flat formula is told by its atoms alone (`Formula.flat_iff`).  Atoms are flat, and so is
whatever is joined from them, in however many steps (`Formula.Joined.flat`): conjunctions
of conjunctions have to come from elsewhere.
-/

import PreconditionMining.Formula

namespace PreconditionMining

namespace Formula

/-- A formula that is an atom or a conjunction of atoms. -/
def Flat (f : Formula) : Prop := ∀ part ∈ f.conjuncts, ∃ text, part = atom text

/-- The formulas that are joined from atoms. -/
inductive Joined : Formula → Prop
  | atom (text : String) : Joined (.atom text)
  | conjoin {f g : Formula} (left : Joined f) (right : Joined g) : Joined (f.conjoin g)

/-- Formulas that are all atoms are told by their texts. -/
theorem eq_map_atomsAll_iff {parts : List Formula} :
    parts = (atomsAll parts).map atom ↔ ∀ part ∈ parts, ∃ text, part = atom text := by
  constructor
  · intro same part mem
    rw [same] at mem
    obtain ⟨text, -, rfl⟩ := List.mem_map.1 mem
    exact ⟨text, rfl⟩
  · intro each
    induction parts with
    | nil => rfl
    | cons part parts ih =>
      obtain ⟨⟨text, rfl⟩, rest⟩ := List.forall_mem_cons.1 each
      rw [atomsAll, atoms, List.singleton_append, List.map_cons, ← ih rest]

/-- **A formula is flat when and only when its conjuncts are its atoms.** -/
theorem flat_iff {f : Formula} : f.Flat ↔ f.conjuncts = f.atoms.map atom := by
  rw [← atomsAll_conjuncts]
  exact eq_map_atomsAll_iff.symm

/-- A formula is flat when none of its conjuncts is a conjunction. -/
theorem flat_iff_forall_ne {f : Formula} :
    f.Flat ↔ ∀ part ∈ f.conjuncts, ∀ parts, part ≠ all parts := by
  refine forall₂_congr fun part _ => ?_
  cases part <;> simp

/-- **A joined formula is flat when and only when both formulas are.** -/
theorem flat_conjoin_iff {f g : Formula} : (f.conjoin g).Flat ↔ f.Flat ∧ g.Flat :=
  List.forall_mem_append

theorem flat_atom (text : String) : (atom text).Flat :=
  fun _ mem => ⟨text, List.mem_singleton.1 mem⟩

/-- **What is joined from atoms is flat.** -/
theorem Joined.flat {f : Formula} (h : f.Joined) : f.Flat := by
  induction h with
  | atom text => exact flat_atom text
  | conjoin _ _ left right => exact flat_conjoin_iff.2 ⟨left, right⟩

/-- **Joining keeps the atoms, and is flat exactly on flat formulas.**  The atoms of a joined
formula are those of the first formula and then those of the second.  None of its conjuncts is a
conjunction, and its conjuncts are exactly these atoms, when and only when both formulas are flat.
That is so for all formulas that were joined from atoms themselves. -/
theorem conjoin_flat_on_flat (f g : Formula) :
    (f.conjoin g).atoms = f.atoms ++ g.atoms ∧
      ((∀ part ∈ (f.conjoin g).conjuncts, ∀ parts, part ≠ all parts) ↔ f.Flat ∧ g.Flat) ∧
      ((f.conjoin g).conjuncts = (f.atoms ++ g.atoms).map atom ↔ f.Flat ∧ g.Flat) ∧
      (f.Joined → f.Flat) := by
  refine ⟨atoms_conjoin f g, ?_, ?_, Joined.flat⟩
  · rw [← flat_iff_forall_ne, flat_conjoin_iff]
  · rw [← atoms_conjoin, ← flat_iff, flat_conjoin_iff]

/-- **A conjunction among the parts of a conjunction stays one** when the formula is joined with
another. -/
theorem conjoin_leaves_nested :
    let joined := (all [all [atom "a"]]).conjoin (atom "b")
    all [atom "a"] ∈ joined.conjuncts ∧
      joined.conjuncts ≠ ((all [all [atom "a"]]).atoms ++ (atom "b").atoms).map atom := by
  decide

end Formula

end PreconditionMining
