/-
# Depths

The depth of a nonterminal is the least height of a finite tree derived from it.
An expansion is one deeper than the deepest nonterminal in it, as far as the
depths of these are known, and the depth of a nonterminal is that of its
shallowest alternative.

`minDepths` improves a table of known depths, rule by rule and pass by pass.  A
pass finds at least one more level of depth, and no depth is larger than the
number of rules, so as many passes as there are rules are enough; the passes
end early when one changes nothing.
-/

import PreconditionMining.Grammar.Token

namespace PreconditionMining

/-- The depths of the nonterminals whose depth is known. -/
abbrev Depths := Dictionary Nat

namespace Depths

/-- The depth of the deepest nonterminal among tokens, 0 where there is none. -/
def deepest? (depths : Depths) : List Token → Option Nat
  | [] => some 0
  | .terminal _ :: ts => deepest? depths ts
  | .nonterminal n :: ts =>
    match depths.find? n, deepest? depths ts with
    | some d, some e => some (max d e)
    | _, _ => none

/-- The depth of an expansion, given by its tokens. -/
def ofTokens? (depths : Depths) (ts : List Token) : Option Nat :=
  (depths.deepest? ts).map (· + 1)

/-- Enters the depth of a nonterminal's shallowest alternative, if it is known and smaller
than the depth known before. -/
def improve (depths : Depths) (rule : String × List (List Token)) : Depths :=
  match (rule.2.filterMap depths.ofTokens?).min? with
  | none => depths
  | some best =>
    if (depths.find? rule.1).all fun known => best < known then depths.insert rule.1 best
    else depths

/-- Improves the table by each rule in turn. -/
def pass (rules : List (String × List (List Token))) (depths : Depths) : Depths :=
  rules.foldl improve depths

/-- Passes over the rules until one changes nothing, or for a number of times. -/
def settle (rules : List (String × List (List Token))) : Nat → Depths → Depths
  | 0, depths => depths
  | n + 1, depths =>
    if pass rules depths = depths then depths else settle rules n (pass rules depths)

end Depths

namespace Grammar

/-- The rules with the tokens of their alternatives. -/
def tokenRules (g : Grammar) : List (String × List (List Token)) :=
  g.rules.entries.map fun (name, alternatives) => (name, alternatives.map g.tokenize)

/-- The depth of each nonterminal that derives a finite tree. -/
def minDepths (g : Grammar) : Depths :=
  Depths.settle g.tokenRules g.tokenRules.length .empty

/-- The depth of an expansion, given the depths of nonterminals. -/
def expansionDepth? (g : Grammar) (expansion : String) (depths : Depths) : Option Nat :=
  depths.ofTokens? (g.tokenize expansion)

end Grammar

end PreconditionMining
