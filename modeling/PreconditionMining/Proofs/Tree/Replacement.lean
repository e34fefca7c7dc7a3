/-
# Replacing a subtree

To replace below the root is to replace in one child (`replace?_cons_eq_some_iff`).  So what
is read at the place and below it is the replacement (`get?_replace?_append`), and what is
read at a place that is neither above nor below it is what was there before
(`get?_replace?_of_apart`).
-/

import PreconditionMining.Tree

namespace PreconditionMining

namespace Tree

/-- A subtree below the root is replaced in one of the children of a node. -/
theorem replace?_cons_eq_some_iff {t r u : Tree} {i : Nat} {rest : Path} :
    t.replace? (i :: rest) r = some u ↔
      ∃ s cs c c', t = .node s cs ∧ cs[i]? = some c ∧ c.replace? rest r = some c' ∧
        u = .node s (cs.set i c') := by
  cases t with
  | terminal text => simp [replace?]
  | node s cs =>
    simp only [replace?, Option.bind_eq_bind, Option.bind_eq_some_iff, Option.pure_def,
      Option.some.injEq]
    constructor
    · rintro ⟨c, atChild, c', below, rfl⟩
      exact ⟨s, cs, c, c', rfl, atChild, below, rfl⟩
    · rintro ⟨_, _, c, c', ⟨⟩, atChild, below, rfl⟩
      exact ⟨c, atChild, c', below, rfl⟩

/-- Where there is a subtree, it can be replaced. -/
theorem exists_replace? {t s : Tree} {p : Path} (here : t.get? p = some s) (r : Tree) :
    ∃ u, t.replace? p r = some u := by
  rw [← Option.isSome_iff_exists, replace?_isSome, here]
  rfl

/-- **The replacement is read at its place,** and what is below it there. -/
theorem get?_replace?_append {t r u : Tree} {p : Path} (replaced : t.replace? p r = some u)
    (q : Path) : u.get? (p ++ q) = r.get? q := by
  induction p generalizing t u with
  | nil =>
    obtain rfl : r = u := by cases t <;> simpa [replace?] using replaced
    rfl
  | cons i rest ih =>
    obtain ⟨s, cs, c, c', rfl, atChild, below, rfl⟩ := replace?_cons_eq_some_iff.1 replaced
    obtain ⟨inside, -⟩ := List.getElem?_eq_some_iff.1 atChild
    rw [List.cons_append, get?_cons, children, List.getElem?_set_self inside]
    exact ih below

/-- **What is apart from the place of a replacement stays as it was.** -/
theorem get?_replace?_of_apart {t r u : Tree} {p q : Path} (replaced : t.replace? p r = some u)
    (notBelow : ¬ p <+: q) (notAbove : ¬ q <+: p) : u.get? q = t.get? q := by
  induction p generalizing t u q with
  | nil => exact absurd List.nil_prefix notBelow
  | cons i rest ih =>
    cases q with
    | nil => exact absurd List.nil_prefix notAbove
    | cons j q =>
      obtain ⟨s, cs, c, c', rfl, atChild, below, rfl⟩ := replace?_cons_eq_some_iff.1 replaced
      obtain ⟨inside, -⟩ := List.getElem?_eq_some_iff.1 atChild
      rw [get?_cons, get?_cons, children, children]
      by_cases same : i = j
      · subst same
        rw [List.getElem?_set_self inside, atChild]
        exact ih below (fun h => notBelow (List.cons_prefix_cons.2 ⟨rfl, h⟩))
          (fun h => notAbove (List.cons_prefix_cons.2 ⟨rfl, h⟩))
      · rw [List.getElem?_set_ne same]

end Tree

end PreconditionMining
