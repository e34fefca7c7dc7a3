/-
# Mutants

A mutating call makes one candidate after another: a node of the sample is chosen, its
symbol is derived anew at its depth, and what is derived takes its place (`Making`).  Each
path that may be chosen leads to a node, and where a node is it can be replaced; so every
attempt makes a candidate (`exists_mutant`), and there is always one to return.

The call returns the first candidate that satisfies the formula, or the last one that it may
make (`mutateWithin_making`).  In either case it differs from the sample in one subtree only
(`Mutant.Renews`): `mutate_renews_one_node`.
-/

import PreconditionMining.Proofs.Fuzzer.Soundness
import PreconditionMining.Proofs.Tree.Replacement

namespace PreconditionMining

variable {ρ : Type} {chooser : Chooser ρ}

/-- A symbol that the grammar defines is derived to a node with that symbol. -/
theorem Derivation.exists_node {g : Grammar} {maxDepth depth : Nat} {fallback : Bool}
    {symbol : String} {t : Tree} {r r' : ρ} (defined : g.alternatives? symbol ≠ none)
    (h : Derivation g maxDepth chooser fallback depth [.nonterminal symbol] r [t] r') :
    ∃ children, t = .node symbol children := by
  cases h with
  | undefined _ absent => exact absurd absent defined
  | barren => exact ⟨_, rfl⟩
  | expand => exact ⟨_, rfl⟩

/-- A candidate for a mutant: where the sample is changed, what is derived for that place, and
the sample with it. -/
structure Mutant where
  place : Path
  part : Tree
  tree : Tree

/-- **A candidate renews one node of a sample:** at the place of a node stands what is derived
from the node's symbol at the node's depth, a node of that symbol if the grammar defines it; and
what is neither above nor below that place stays as it was. -/
structure Mutant.Renews (c : Mutant) (g : Grammar) (maxDepth : Nat) (chooser : Chooser ρ)
    (sample : Tree) (symbol : String) : Prop where
  node : ∃ children, sample.get? c.place = some (.node symbol children)
  derived : ∃ r r', Derivation g maxDepth chooser true c.place.length [.nonterminal symbol] r
    [c.part] r'
  replaced : sample.replace? c.place c.part = some c.tree
  here : c.tree.get? c.place = some c.part
  sameSymbol : g.alternatives? symbol ≠ none → ∃ children, c.part = .node symbol children
  elsewhere : ∀ q, ¬ c.place <+: q → ¬ q <+: c.place → c.tree.get? q = sample.get? q

namespace Fuzzer

/-- **How candidates are made of a sample,** one after another: one of the paths of the nodes is
chosen, the symbol of the node there is derived at its depth, and what is derived replaces the
node. -/
inductive Making (chooser : Chooser ρ) (sample : Tree) :
    Fuzzer ρ → List Mutant → Fuzzer ρ → Prop
  | done {f : Fuzzer ρ} : Making chooser sample f [] f
  | made {f f₁ f₂ : Fuzzer ρ} {path place : Path} {paths : List Path} {r : ρ} {symbol : String}
      {children : List Tree} {part mutant : Tree} {later : List Mutant}
      (nodes : sample.nodePaths = path :: paths)
      (chosen : chooser.element path paths f.draws = (place, r))
      (node : sample.get? place = some (.node symbol children))
      (derived : derive chooser { f with draws := r } symbol place.length = (part, f₁))
      (replaced : sample.replace? place part = some mutant)
      (rest : Making chooser sample f₁ later f₂) :
      Making chooser sample f (⟨place, part, mutant⟩ :: later) f₂

/-- What was derived after other draws leaves the task alone. -/
theorem SameTask.of_derived {f f₁ : Fuzzer ρ} {r : ρ} {symbol : String} {depth : Nat} {t : Tree}
    (derived : Fuzzer.derive chooser { f with draws := r } symbol depth = (t, f₁)) :
    f.SameTask f₁ := by
  obtain rfl : (Fuzzer.derive chooser { f with draws := r } symbol depth).2 = f₁ := by rw [derived]
  exact ⟨rfl, rfl, rfl⟩

variable {sample : Tree} {path : Path} {paths : List Path} {f : Fuzzer ρ}

/-- **Each attempt makes a candidate,** and the call ends with it if it satisfies the formula. -/
theorem exists_mutant (nodes : sample.nodePaths = path :: paths)
    (timeless : f.options.timeoutMs = none) :
    ∃ c f₁, f.SameTask f₁ ∧
      (∀ later f₂, Making chooser sample f₁ later f₂ → Making chooser sample f (c :: later) f₂) ∧
      ∀ attempts last, mutateWithin chooser sample path paths (attempts + 1) last f =
        if f.formula.holds c.tree then { answer := .ok c.tree, state := f₁ }
        else mutateWithin chooser sample path paths attempts c.tree f₁ := by
  rcases chosen : chooser.element path paths f.draws with ⟨place, r⟩
  have among : place ∈ sample.nodePaths := by
    have mem := chooser.element_mem path paths f.draws
    rwa [chosen, ← nodes] at mem
  obtain ⟨symbol, children, node⟩ := Tree.mem_nodePaths.1 among
  rcases derived : derive chooser { f with draws := r } symbol place.length with ⟨part, f₁⟩
  obtain ⟨mutant, replaced⟩ := Tree.exists_replace? node part
  have task := SameTask.of_derived derived
  have unspent := expired?_eq_none timeless
  refine ⟨⟨place, part, mutant⟩, f₁, task,
    fun later f₂ rest => .made nodes chosen node derived replaced rest, fun attempts last => ?_⟩
  rw [mutateWithin, unspent]
  simp only [chosen, node, Tree.symbol, derived, replaced, task.formula]

/-- **A call makes candidates up to the first that satisfies the formula,** or as many as it
may, and returns the last of them. -/
theorem mutateWithin_making (nodes : sample.nodePaths = path :: paths)
    (timeless : f.options.timeoutMs = none) (attempts : Nat) (last : Tree) :
    ∃ earlier c, Making chooser sample f (earlier ++ [c])
        (mutateWithin chooser sample path paths (attempts + 1) last f).state ∧
      (mutateWithin chooser sample path paths (attempts + 1) last f).answer = .ok c.tree ∧
      (∀ d ∈ earlier, f.formula.holds d.tree = false) ∧ earlier.length ≤ attempts ∧
      (f.formula.holds c.tree = false → earlier.length = attempts) := by
  induction attempts generalizing f last with
  | zero =>
    obtain ⟨c, f₁, -, making, call⟩ := exists_mutant nodes timeless
    refine ⟨[], c, ?_, ?_, by simp, Nat.le_refl 0, fun _ => rfl⟩
    · rw [call]
      split <;> exact making [] f₁ .done
    · rw [call]
      split <;> rfl
  | succ attempts ih =>
    obtain ⟨c, f₁, task, making, call⟩ := exists_mutant nodes timeless
    rw [call]
    cases fits : f.formula.holds c.tree with
    | true =>
      exact ⟨[], c, making [] f₁ .done, rfl, by simp, Nat.zero_le _, by simp [fits]⟩
    | false =>
      obtain ⟨earlier, d, rest, answer, violate, few, all⟩ :=
        ih (f := f₁) (task.options ▸ timeless) c.tree
      rw [task.formula] at violate all
      refine ⟨c :: earlier, d, making _ _ rest, answer, List.forall_mem_cons.2 ⟨fits, violate⟩,
        Nat.succ_le_succ few, fun bad => congrArg Nat.succ (all bad)⟩

/-- **Each candidate renews one node of the sample.** -/
theorem Making.renews {g : Grammar} {f' : Fuzzer ρ} {made : List Mutant}
    (making : Making chooser sample f made f')
    (expansions : f.expansions = .ofGrammar g g.minDepths) :
    ∀ c ∈ made, ∃ symbol, c.Renews g f.options.maxDepth chooser sample symbol := by
  induction making with
  | done => simp
  | @made f f₁ _ _ place _ r symbol children part mutant _ nodes chosen node derived replaced _ ih =>
    have task := SameTask.of_derived derived
    have gives : (Expansions.ofGrammar g g.minDepths).derive f.options.maxDepth chooser symbol
        place.length r = (part, f₁.draws) := by
      rw [← expansions]
      exact congrArg (fun out => (out.1, out.2.draws)) derived
    have derivation := Derivation.iff_derive.2 ⟨part, rfl, gives⟩
    have later := ih (task.expansions.trans expansions)
    rw [task.options] at later
    refine List.forall_mem_cons.2 ⟨⟨symbol, ⟨children, node⟩, ⟨r, f₁.draws, derivation⟩, replaced,
      ?_, fun defined => derivation.exists_node defined, fun q notBelow notAbove => ?_⟩, later⟩
    · simpa using Tree.get?_replace?_append replaced []
    · exact Tree.get?_replace?_of_apart replaced notBelow notAbove

/-- **A mutant differs from its sample in one subtree.**  Without a time budget a mutating call on
a sample that is a node, whatever the sample and the draws, makes candidates and returns the last
of them.  Each candidate renews one node of the sample; all before the last violate the formula, and
the last one does only if as many were made as may be, which is one at least.  A sample without
nodes is returned as it is. -/
theorem mutate_renews_one_node {g : Grammar} (expansions : f.expansions = .ofGrammar g g.minDepths)
    (timeless : f.options.timeoutMs = none) (chooser : Chooser ρ) (sample : Tree) :
    (sample.isNode = true → ∃ earlier last,
      Making chooser sample f (earlier ++ [last]) (f.mutate chooser sample).state ∧
      (f.mutate chooser sample).answer = .ok last.tree ∧
      (∀ c ∈ earlier ++ [last], ∃ symbol, c.Renews g f.options.maxDepth chooser sample symbol) ∧
      (∀ c ∈ earlier, f.formula.holds c.tree = false) ∧
      (earlier ++ [last]).length ≤ max 1 f.options.maxAttempts ∧
      (f.formula.holds last.tree = false →
        (earlier ++ [last]).length = max 1 f.options.maxAttempts)) ∧
    (sample.isNode = false → f.mutate chooser sample = { answer := .ok sample, state := f }) := by
  constructor
  · intro isNode
    obtain ⟨path, paths, nodes⟩ := List.exists_cons_of_ne_nil ((Tree.nodePaths_ne_nil sample).2 isNode)
    obtain ⟨attempts, budget⟩ : ∃ attempts, max 1 f.options.maxAttempts = attempts + 1 :=
      ⟨max 1 f.options.maxAttempts - 1, by omega⟩
    have call : f.mutate chooser sample =
        mutateWithin chooser sample path paths (attempts + 1) sample f := by
      rw [mutate, nodes, ← budget]
    obtain ⟨earlier, last, making, answer, violate, few, all⟩ :=
      mutateWithin_making nodes timeless attempts sample
    rw [← call] at making answer
    have length : (earlier ++ [last]).length = earlier.length + 1 := List.length_append
    refine ⟨earlier, last, making, answer, making.renews expansions, violate, ?_, fun bad => ?_⟩
    · rw [length, budget]
      exact Nat.succ_le_succ few
    · rw [length, budget, all bad]
  · intro isTerminal
    cases sample with
    | terminal text => rfl
    | node symbol children => cases isTerminal

/-- A fuzzer for letters with a formula that nothing satisfies, and no attempt to spare. -/
def unsatisfiable : Fuzzer (List Nat) :=
  { ofLetters [0, 1] with
    formula := ⟨some "x", [fun _ => false]⟩
    options := { maxAttempts := 0 } }

/-- It makes one candidate of the tree of `ab`, and returns it. -/
theorem mutate_renews_one_node_letters :
    unsatisfiable.expansions = .ofGrammar letters letters.minDepths ∧
      unsatisfiable.options.timeoutMs = none ∧ ∃ sample : Tree, sample.isNode = true ∧
        sample.render = "ab" ∧ ∃ c symbol, c.Renews letters 16 .scripted sample symbol ∧
          Making .scripted sample unsatisfiable [c] (unsatisfiable.mutate .scripted sample).state ∧
          (unsatisfiable.mutate .scripted sample).answer = .ok c.tree ∧
          unsatisfiable.formula.holds c.tree = false := by
  have timeless : unsatisfiable.options.timeoutMs = none := rfl
  obtain ⟨mutant, -⟩ := mutate_renews_one_node (g := letters) rfl timeless .scripted
    (.node "<start>" [.terminal "a", .node "<start>" [.terminal "b"]])
  obtain ⟨earlier, last, making, answer, renews, -, few, -⟩ := mutant rfl
  have once : max 1 unsatisfiable.options.maxAttempts = 1 := rfl
  rw [List.length_append, once] at few
  obtain rfl : earlier = [] :=
    List.eq_nil_of_length_eq_zero (Nat.le_zero.1 (Nat.le_of_succ_le_succ few))
  obtain ⟨symbol, renews⟩ := renews last List.mem_cons_self
  exact ⟨rfl, timeless, _, rfl, by decide, last, symbol, renews, making, answer, rfl⟩

end Fuzzer

end PreconditionMining
