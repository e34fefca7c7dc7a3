/-
# Derivation trees

A sample is a derivation tree: a terminal text, or a node with a symbol and its
children.  Its rendering is what the terminals read from left to right.

A place in a tree is a path of child numbers from the root.  `get?` is the
subtree at a path, `replace?` puts another tree there, and `nodePaths` lists the
paths of all nodes, a node before those below it and left before right.
-/

namespace PreconditionMining

/-- A terminal text, or a symbol with the trees it was expanded to. -/
inductive Tree
  | terminal (text : String)
  | node (symbol : String) (children : List Tree)

/-- The child numbers on the way from the root to a place. -/
abbrev Path := List Nat

namespace Tree

instance : Inhabited Tree := ⟨terminal ""⟩

mutual

/-- Decides equality of trees. -/
def decEq : (s t : Tree) → Decidable (s = t)
  | terminal a, terminal b => decidable_of_iff (a = b) (by simp)
  | node a cs, node b ds =>
    have := decEqAll cs ds
    decidable_of_iff (a = b ∧ cs = ds) (by simp)
  | terminal _, node _ _ => isFalse (by simp)
  | node _ _, terminal _ => isFalse (by simp)

/-- Decides equality of lists of trees. -/
def decEqAll : (cs ds : List Tree) → Decidable (cs = ds)
  | [], [] => isTrue rfl
  | [], _ :: _ => isFalse (by simp)
  | _ :: _, [] => isFalse (by simp)
  | c :: cs, d :: ds =>
    have := decEq c d
    have := decEqAll cs ds
    decidable_of_iff (c = d ∧ cs = ds) (by simp)

end

instance : DecidableEq Tree := decEq

/-- The symbol of a node; of a terminal its text. -/
def symbol : Tree → String
  | terminal text => text
  | node s _ => s

/-- The children of a node; a terminal has none. -/
def children : Tree → List Tree
  | terminal _ => []
  | node _ cs => cs

/-- Whether a tree is a node. -/
def isNode : Tree → Bool
  | terminal _ => false
  | node _ _ => true

mutual

/-- The terminals of a tree, read from left to right. -/
def render : Tree → String
  | terminal text => text
  | node _ cs => renderAll cs

/-- The terminals of a list of trees, read from left to right. -/
def renderAll : List Tree → String
  | [] => ""
  | c :: cs => render c ++ renderAll cs

end

mutual

/-- The number of terminals and nodes. -/
def size : Tree → Nat
  | terminal _ => 1
  | node _ cs => sizeAll cs + 1

/-- The number of terminals and nodes of a list of trees. -/
def sizeAll : List Tree → Nat
  | [] => 0
  | c :: cs => size c + sizeAll cs

end

mutual

/-- The height: a terminal has height 0, and a node is one higher than its highest child. -/
def height : Tree → Nat
  | terminal _ => 0
  | node _ cs => heightAll cs + 1

/-- The height of the highest tree of a list. -/
def heightAll : List Tree → Nat
  | [] => 0
  | c :: cs => max (height c) (heightAll cs)

end

mutual

/-- The paths of the nodes, each before those below it, and left before right. -/
def nodePaths : Tree → List Path
  | terminal _ => []
  | node _ cs => [] :: nodePathsFrom 0 cs

/-- The paths of the nodes in children that are numbered from `i` on. -/
def nodePathsFrom (i : Nat) : List Tree → List Path
  | [] => []
  | c :: cs => (nodePaths c).map (i :: ·) ++ nodePathsFrom (i + 1) cs

end

/-- The subtree at a path. -/
def get? : Tree → Path → Option Tree
  | t, [] => some t
  | t, i :: rest => t.children[i]?.bind fun c => c.get? rest

/-- The tree with another subtree at a path, if the path leads to a place in the tree. -/
def replace? : Tree → Path → Tree → Option Tree
  | _, [], r => some r
  | terminal _, _ :: _, _ => none
  | node s cs, i :: rest, r => do
    let c ← cs[i]?
    let c' ← c.replace? rest r
    return node s (cs.set i c')

mutual

/-- The nodes with a symbol, each before those below it, and left before right. -/
def findAll (wanted : String) : Tree → List Tree
  | terminal _ => []
  | node s cs =>
    if s = wanted then node s cs :: findAllIn wanted cs else findAllIn wanted cs

/-- The nodes with a symbol in a list of trees. -/
def findAllIn (wanted : String) : List Tree → List Tree
  | [] => []
  | c :: cs => findAll wanted c ++ findAllIn wanted cs

end

/-- The highest tree of a list is no higher than a bound when and only when no tree is. -/
theorem heightAll_le_iff {h : Nat} {cs : List Tree} :
    heightAll cs ≤ h ↔ ∀ c ∈ cs, c.height ≤ h := by
  induction cs with
  | nil => simp [heightAll]
  | cons c cs ih => rw [heightAll, Nat.max_le, ih, List.forall_mem_cons]

@[simp] theorem get?_nil (t : Tree) : t.get? [] = some t := by
  cases t <;> rfl

@[simp] theorem get?_cons (t : Tree) (i : Nat) (rest : Path) :
    t.get? (i :: rest) = t.children[i]?.bind fun c => c.get? rest := by
  cases t <;> rfl

/-- Going down `p ++ q` is going down `p`, and `q` from there. -/
theorem get?_append (t : Tree) (p q : Path) :
    t.get? (p ++ q) = (t.get? p).bind fun s => s.get? q := by
  induction p generalizing t with
  | nil => simp
  | cons i rest ih =>
    rw [List.cons_append, get?_cons, get?_cons]
    cases t.children[i]? with
    | none => rfl
    | some c => exact ih c

/-- **A subtree can be replaced exactly where there is one.** -/
theorem replace?_isSome (t : Tree) (p : Path) (r : Tree) :
    (t.replace? p r).isSome = (t.get? p).isSome := by
  induction p generalizing t with
  | nil => cases t <;> simp [replace?]
  | cons i rest ih =>
    cases t with
    | terminal text => simp [replace?, children]
    | node s cs =>
      cases h : cs[i]? with
      | none => simp [replace?, children, h]
      | some c =>
        have := ih c
        cases hc : c.replace? rest r <;> simp_all [replace?, children]

theorem nodePaths_ne_nil : ∀ t : Tree, t.nodePaths ≠ [] ↔ t.isNode = true
  | terminal _ => by simp [nodePaths, isNode]
  | node _ _ => by simp [nodePaths, isNode]

end Tree

end PreconditionMining
