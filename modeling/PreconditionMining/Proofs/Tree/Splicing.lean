/-
# Splicing trees

A place in a tree has surroundings: the nodes on the way to it, each without the child that
leads on (`Frame`).  A tree with a subtree at a place is its surroundings around that subtree
(`exists_around`), and to replace the subtree is to put another one into the same surroundings
(`replace?_around`).  What the surroundings read to the left and to the right of the place, and
how many nodes they have, has nothing to do with what is put there (`render_around`,
`size_around`).

So replacing behaves as an assignment to a place does.  It can be undone, replacements at places
apart do not get in each other's way (`replace?_comm`), and the text of the new subtree stands
where that of the old one stood: `replacing_splices`.
-/

import PreconditionMining.Proofs.Tree.Replacement

namespace PreconditionMining

/-- A node without one of its children: those to the left of it and those to the right. -/
structure Frame where
  symbol : String
  left : List Tree
  right : List Tree

namespace Tree

/-- The surroundings of a place, outermost node first, with a tree put there. -/
def around : List Frame → Tree → Tree
  | [], t => t
  | f :: fs, t => .node f.symbol (f.left ++ around fs t :: f.right)

theorem renderAll_append (cs ds : List Tree) :
    renderAll (cs ++ ds) = renderAll cs ++ renderAll ds := by
  induction cs with
  | nil => rw [List.nil_append, renderAll, String.empty_append]
  | cons c cs ih => rw [List.cons_append, renderAll, renderAll, ih, String.append_assoc]

theorem sizeAll_append (cs ds : List Tree) : sizeAll (cs ++ ds) = sizeAll cs + sizeAll ds := by
  induction cs with
  | nil => rw [List.nil_append, sizeAll, Nat.zero_add]
  | cons c cs ih => rw [List.cons_append, sizeAll, sizeAll, ih, Nat.add_assoc]

end Tree

namespace Frame

open PreconditionMining.Tree

/-- The way to the place that frames surround. -/
def path (fs : List Frame) : Path := fs.map fun f => f.left.length

/-- What frames read to the left of the place that they surround. -/
def before : List Frame → String
  | [] => ""
  | f :: fs => renderAll f.left ++ before fs

/-- What frames read to the right of the place that they surround. -/
def after : List Frame → String
  | [] => ""
  | f :: fs => after fs ++ renderAll f.right

/-- The number of terminals and nodes of frames. -/
def size : List Frame → Nat
  | [] => 0
  | f :: fs => sizeAll f.left + size fs + sizeAll f.right + 1

end Frame

namespace Tree

/-- A subtree below the root is one of a child of a node. -/
theorem get?_cons_eq_some_iff {t u : Tree} {i : Nat} {rest : Path} :
    t.get? (i :: rest) = some u ↔
      ∃ s cs c, t = .node s cs ∧ cs[i]? = some c ∧ c.get? rest = some u := by
  rw [get?_cons, Option.bind_eq_some_iff]
  cases t with
  | terminal text => simp [children]
  | node s cs =>
    constructor
    · rintro ⟨c, atChild, below⟩
      exact ⟨s, cs, c, rfl, atChild, below⟩
    · rintro ⟨_, _, c, ⟨⟩, atChild, below⟩
      exact ⟨c, atChild, below⟩

/-- **A tree is what surrounds a place in it, around the subtree there.** -/
theorem exists_around {t s : Tree} {p : Path} (here : t.get? p = some s) :
    ∃ fs, Frame.path fs = p ∧ around fs s = t := by
  induction p generalizing t with
  | nil => exact ⟨[], rfl, Option.some.inj (here.symm.trans (get?_nil t))⟩
  | cons i rest ih =>
    obtain ⟨symbol, cs, c, rfl, atChild, below⟩ := get?_cons_eq_some_iff.1 here
    obtain ⟨fs, way, whole⟩ := ih below
    obtain ⟨inside, rfl⟩ := List.getElem?_eq_some_iff.1 atChild
    refine ⟨⟨symbol, cs.take i, cs.drop (i + 1)⟩ :: fs, ?_, ?_⟩
    · rw [Frame.path, List.map_cons, ← Frame.path, way, List.length_take,
        Nat.min_eq_left (Nat.le_of_lt inside)]
    · rw [around, whole, List.getElem_cons_drop, List.take_append_drop]

/-- **To replace a subtree is to put another one into its surroundings.** -/
theorem replace?_around (fs : List Frame) (s r : Tree) :
    (around fs s).replace? (Frame.path fs) r = some (around fs r) := by
  induction fs with
  | nil => cases s <;> rfl
  | cons f fs ih =>
    refine replace?_cons_eq_some_iff.2 ⟨f.symbol, _, around fs s, around fs r, rfl, ?_, ih, ?_⟩
    · rw [List.getElem?_append_right (Nat.le_refl _), Nat.sub_self, List.getElem?_cons_zero]
    · rw [List.set_append_right _ _ (Nat.le_refl _), Nat.sub_self, List.set_cons_zero, around]

/-- **Surroundings read the same around any subtree.** -/
theorem render_around (fs : List Frame) (t : Tree) :
    (around fs t).render = Frame.before fs ++ t.render ++ Frame.after fs := by
  induction fs with
  | nil => rw [around, Frame.before, Frame.after, String.empty_append, String.append_empty]
  | cons f fs ih =>
    rw [around, render, renderAll_append, renderAll, ih, Frame.before, Frame.after]
    simp only [String.append_assoc]

/-- **Surroundings add the same number of nodes to any subtree.** -/
theorem size_around (fs : List Frame) (t : Tree) :
    (around fs t).size = Frame.size fs + t.size := by
  induction fs with
  | nil => rw [around, Frame.size, Nat.zero_add]
  | cons f fs ih =>
    rw [around, size, sizeAll_append, sizeAll, ih, Frame.size]
    omega

/-- Of two replacements at places apart the second may be made first. -/
theorem exists_replace?_swap {t u w r r' : Tree} {p q : Path} (notBelow : ¬ p <+: q)
    (notAbove : ¬ q <+: p) (first : t.replace? p r = some u) (second : u.replace? q r' = some w) :
    ∃ v, t.replace? q r' = some v ∧ v.replace? p r = some w := by
  induction p generalizing t u w q with
  | nil => exact absurd List.nil_prefix notBelow
  | cons i p ih =>
    cases q with
    | nil => exact absurd List.nil_prefix notAbove
    | cons j q =>
      obtain ⟨s, cs, c, c', rfl, atChild, below, rfl⟩ := replace?_cons_eq_some_iff.1 first
      obtain ⟨_, _, d, d', ⟨⟩, atChild', below', rfl⟩ := replace?_cons_eq_some_iff.1 second
      obtain ⟨inside, -⟩ := List.getElem?_eq_some_iff.1 atChild
      by_cases same : i = j
      · subst same
        rw [List.getElem?_set_self inside] at atChild'
        obtain rfl := Option.some.inj atChild'
        obtain ⟨v, before, after⟩ := ih (fun h => notBelow (List.cons_prefix_cons.2 ⟨rfl, h⟩))
          (fun h => notAbove (List.cons_prefix_cons.2 ⟨rfl, h⟩)) below below'
        refine ⟨.node s (cs.set i v), replace?_cons_eq_some_iff.2 ⟨s, cs, c, v, rfl, atChild,
          before, rfl⟩, replace?_cons_eq_some_iff.2 ⟨s, _, v, d', rfl,
            List.getElem?_set_self inside, after, ?_⟩⟩
        rw [List.set_set, List.set_set]
      · rw [List.getElem?_set_ne same] at atChild'
        refine ⟨.node s (cs.set j d'), replace?_cons_eq_some_iff.2 ⟨s, cs, d, d', rfl, atChild',
          below', rfl⟩, replace?_cons_eq_some_iff.2 ⟨s, _, c, c', rfl, ?_, below, ?_⟩⟩
        · rw [List.getElem?_set_ne (Ne.symm same), atChild]
        · rw [List.set_comm _ _ same]

/-- **Replacements at places apart commute,** also where there is no such place. -/
theorem replace?_comm {p q : Path} (notBelow : ¬ p <+: q) (notAbove : ¬ q <+: p)
    (t r r' : Tree) :
    (t.replace? p r).bind (fun u => u.replace? q r') =
      (t.replace? q r').bind fun v => v.replace? p r := by
  ext w
  rw [Option.bind_eq_some_iff, Option.bind_eq_some_iff]
  constructor
  · rintro ⟨u, first, second⟩
    exact exists_replace?_swap notBelow notAbove first second
  · rintro ⟨v, first, second⟩
    exact exists_replace?_swap notAbove notBelow first second

/-- **Replacing assigns to a place and splices the text.**  For every tree and every path: a
subtree can be replaced when and only when there is one.  Then the replacement is read at its place,
with all that is below it, and what is neither above nor below the place is read as before; to
replace it by the old subtree gives the old tree; and the size changes by what the two subtrees
differ in.  Replacements at two places apart give the same in either order.  And there are two
texts, which no replacement changes, such that the tree reads the old subtree between them, and the
new one where it is replaced. -/
theorem replacing_splices (t : Tree) (p : Path) :
    (∀ r, (t.replace? p r).isSome = (t.get? p).isSome) ∧
    (∀ r u, t.replace? p r = some u →
      u.get? p = some r ∧ (∀ q, u.get? (p ++ q) = r.get? q) ∧
      (∀ q, ¬ p <+: q → ¬ q <+: p → u.get? q = t.get? q) ∧
      ∀ s, t.get? p = some s →
        u.replace? p s = some t ∧ u.size + s.size = t.size + r.size) ∧
    (∀ q, ¬ p <+: q → ¬ q <+: p → ∀ r r',
      (t.replace? p r).bind (fun u => u.replace? q r') =
        (t.replace? q r').bind fun v => v.replace? p r) ∧
    ∀ s, t.get? p = some s → ∃ before after : String,
      t.render = before ++ s.render ++ after ∧
      ∀ r u, t.replace? p r = some u → u.render = before ++ r.render ++ after := by
  -- where there is a subtree, tree and replacement are the same surroundings
  have spliced : ∀ {s}, t.get? p = some s → ∃ fs, Frame.path fs = p ∧ around fs s = t ∧
      ∀ r u, t.replace? p r = some u → around fs r = u := by
    intro s here
    obtain ⟨fs, rfl, rfl⟩ := exists_around here
    exact ⟨fs, rfl, rfl, fun r u replaced =>
      Option.some.inj ((replace?_around fs s r).symm.trans replaced)⟩
  refine ⟨replace?_isSome t p, fun r u replaced => ⟨?_, get?_replace?_append replaced,
    fun q => get?_replace?_of_apart replaced, fun s here => ⟨?_, ?_⟩⟩,
    fun q notBelow notAbove => replace?_comm notBelow notAbove t, fun s here => ?_⟩
  · have read := get?_replace?_append replaced []
    rwa [List.append_nil, get?_nil] at read
  · obtain ⟨fs, rfl, rfl, same⟩ := spliced here
    rw [← same r u replaced]
    exact replace?_around fs r s
  · obtain ⟨fs, rfl, rfl, same⟩ := spliced here
    rw [← same r u replaced, size_around, size_around]
    omega
  · obtain ⟨fs, rfl, rfl, same⟩ := spliced here
    refine ⟨Frame.before fs, Frame.after fs, render_around fs s, fun r u replaced => ?_⟩
    rw [← same r u replaced]
    exact render_around fs r

/-- The second letter of a word is replaced by a word. -/
example :
    (Tree.node "word" [.terminal "a", .node "letter" [.terminal "b"], .terminal "c"]).replace? [1]
      (.node "word" [.terminal "x", .terminal "y"]) =
        some (.node "word" [.terminal "a", .node "word" [.terminal "x", .terminal "y"],
          .terminal "c"]) := rfl

end Tree

end PreconditionMining
