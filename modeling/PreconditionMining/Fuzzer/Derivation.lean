/-
# Random derivations

To derive a tree from a nonterminal, one of its alternatives is chosen, and the
nonterminals in it are derived in turn, from left to right.  Only alternatives
that lead to a finite tree are eligible; from a depth bound on, only the
shallowest of these.

`Expansions` lists the eligible alternatives of each nonterminal with their
depths.  Below the bound each level is one deeper, past the bound each level is
shallower by its depth, so the height of the tree is bounded from the start:
`derive` goes down within that height.
-/

import PreconditionMining.Draws.Chooser
import PreconditionMining.Grammar.Depth
import PreconditionMining.Tree

namespace PreconditionMining

/-- An alternative that leads to a finite tree: its tokens and its depth. -/
structure Alternative where
  tokens : List Token
  depth : Nat

/-- The alternatives of each nonterminal that lead to finite trees, in their order. -/
abbrev Expansions := Dictionary (List Alternative)

namespace Expansions

/-- The alternatives among token lists that lead to finite trees. -/
def finite (depths : Depths) (alternatives : List (List Token)) : List Alternative :=
  alternatives.filterMap fun ts => (depths.ofTokens? ts).map fun d => ⟨ts, d⟩

/-- The expansions of a grammar whose depths are known. -/
def ofGrammar (g : Grammar) (depths : Depths) : Expansions :=
  .ofList (g.tokenRules.map fun (name, alternatives) => (name, finite depths alternatives))

/-- The alternatives of least depth. -/
def shallowest (alternatives : List Alternative) : List Alternative :=
  match (alternatives.map (·.depth)).min? with
  | none => []
  | some least => alternatives.filter fun a => a.depth = least

/-- The alternatives that may be chosen at a depth. -/
def eligible (maxDepth depth : Nat) (alternatives : List Alternative) : List Alternative :=
  if maxDepth ≤ depth then shallowest alternatives else alternatives

/-- The largest depth of an alternative. -/
def deepest (expansions : Expansions) : Nat :=
  ((expansions.entries.flatMap (·.2)).map (·.depth)).foldl max 0

section

variable {ρ : Type}

/-- Derives each token of an expansion, where `child` derives the nonterminals. -/
def deriveTokens (child : String → ρ → Tree × ρ) : List Token → ρ → List Tree × ρ
  | [], r => ([], r)
  | .terminal t :: ts, r =>
    let (trees, r) := deriveTokens child ts r
    (.terminal t :: trees, r)
  | .nonterminal n :: ts, r =>
    let (tree, r) := child n r
    let (trees, r) := deriveTokens child ts r
    (tree :: trees, r)

/-- Derives a tree of at most a given height.  A symbol that the grammar does not define is
terminal text; one without a finite tree becomes a node without children. -/
def deriveWithin (expansions : Expansions) (maxDepth : Nat) (chooser : Chooser ρ) :
    Nat → String → Nat → ρ → Tree × ρ
  | 0, symbol, _, r => (.node symbol [], r)
  | height + 1, symbol, depth, r =>
    match expansions.find? symbol with
    | none => (.terminal symbol, r)
    | some alternatives =>
      match eligible maxDepth depth alternatives with
      | [] => (.node symbol [], r)
      | first :: rest =>
        let (chosen, r) := chooser.element first rest r
        let (children, r) := deriveTokens
          (fun n r => deriveWithin expansions maxDepth chooser height n (depth + 1) r)
          chosen.tokens r
        (.node symbol children, r)

/-- The height that no derivation from a depth exceeds. -/
def heightBound (expansions : Expansions) (maxDepth depth : Nat) : Nat :=
  (maxDepth - depth) + expansions.deepest + 1

/-- **Derives a tree from a symbol at a depth.** -/
def derive (expansions : Expansions) (maxDepth : Nat) (chooser : Chooser ρ) (symbol : String)
    (depth : Nat) (r : ρ) : Tree × ρ :=
  deriveWithin expansions maxDepth chooser (heightBound expansions maxDepth depth) symbol depth r

end

end Expansions

end PreconditionMining
