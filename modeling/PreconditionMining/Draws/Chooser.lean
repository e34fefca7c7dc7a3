/-
# Choices

Whatever draws at random does so through a chooser: asked for one of `n + 1`
things, it names one by its number and moves on to its next state.  What is
proved for every chooser holds for every run of luck; a chooser over a list of
numbers (`Chooser.scripted`) makes the choices that it is told to make.
-/

namespace PreconditionMining

/-- A source of choices over states of type `ρ`. -/
structure Chooser (ρ : Type) where
  /-- Chooses one of `n + 1` things. -/
  pick : (n : Nat) → ρ → Fin (n + 1) × ρ

namespace Chooser

variable {ρ : Type}

/-- Chooses an element of a list with a first element. -/
def element {α : Type} (c : Chooser ρ) (first : α) (rest : List α) (r : ρ) : α × ρ :=
  let (i, r) := c.pick rest.length r
  ((first :: rest)[i], r)

theorem element_mem {α : Type} (c : Chooser ρ) (first : α) (rest : List α) (r : ρ) :
    (c.element first rest r).1 ∈ first :: rest := by
  simp [element]

/-- The chooser that follows a list of numbers, and chooses the first thing where the list
has no number or one that is too large. -/
def scripted : Chooser (List Nat) where
  pick n
    | [] => (0, [])
    | k :: ks => (if h : k < n + 1 then ⟨k, h⟩ else 0, ks)

end Chooser

end PreconditionMining
