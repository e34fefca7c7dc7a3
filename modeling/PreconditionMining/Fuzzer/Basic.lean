/-
# The grammar fuzzer

The fuzzer is a solver that draws random derivations from the start symbol until
one satisfies the formula.  With distinct samples it remembers the renderings
that it returned and passes over samples that read the same.

A mutant is a sample in which one node, chosen at random, is derived anew.  Of
the candidates drawn, the first that satisfies the formula is the mutant, and
the last one where none does.

Each call has a time budget.  Time does not pass here: an empty budget is spent
before the first draw, and any other budget is never spent.
-/

import PreconditionMining.Fuzzer.Constraint
import PreconditionMining.Fuzzer.Derivation
import PreconditionMining.Settings.Options
import PreconditionMining.Solver.Basic

namespace PreconditionMining

/-- The state of a fuzzer whose draws come from a state of type `ρ`. -/
structure Fuzzer (ρ : Type) where
  expansions : Expansions
  formula : CompiledFormula
  options : SolverOptions
  draws : ρ
  /-- The renderings of the samples returned so far, where these are to be distinct. -/
  seen : List String

namespace Fuzzer

variable {ρ : Type}

/-- A fuzzer for a grammar and a formula, with draws from a state. -/
def build (g : Grammar) (formula : Option Formula) (options : SolverOptions)
    (constraints : Constraints) (draws : ρ) : Except SolverError (Fuzzer ρ) :=
  match constraints.compile formula with
  | .error e => .error e
  | .ok compiled =>
    if g.minDepths.contains startSymbol then
      .ok ⟨.ofGrammar g g.minDepths, compiled, options, draws, []⟩
    else .error .noFiniteDerivation

/-- How many different samples were returned. -/
def distinctCount (f : Fuzzer ρ) : Nat := f.seen.length

/-- The time budget of a call when it is spent at once. -/
def expired? (f : Fuzzer ρ) : Option SolverError :=
  match f.options.timeoutMs with
  | some 0 => some (.timeout 0)
  | _ => none

/-- Derives a tree from a symbol at a depth. -/
def derive (chooser : Chooser ρ) (f : Fuzzer ρ) (symbol : String) (depth : Nat) :
    Tree × Fuzzer ρ :=
  let (tree, draws) := f.expansions.derive f.options.maxDepth chooser symbol depth f.draws
  (tree, { f with draws })

/-- The end of a call that drew all its samples.  It had nothing new if the count of repeated
samples is positive. -/
def exhausted (f : Fuzzer ρ) (repeats : Int32) : Reply (Fuzzer ρ) :=
  if 0 < repeats then
    { answer := .error .exhausted, state := f,
      events := [.nothingNew repeats.toNatClampNeg f.distinctCount] }
  else
    { answer := .error (.noSample f.formula.text f.options.maxAttempts), state := f }

/-- Draws at most a number of samples, after some repeated ones.  These are counted in a signed
word of 32 bits, which wraps around. -/
def solveWithin (chooser : Chooser ρ) : Nat → Int32 → Fuzzer ρ → Reply (Fuzzer ρ)
  | 0, repeats, f => f.exhausted repeats
  | attempts + 1, repeats, f =>
    match f.expired? with
    | some e => { answer := .error e, state := f }
    | none =>
      let (sample, f) := f.derive chooser startSymbol 0
      if !f.formula.holds sample then solveWithin chooser attempts repeats f
      else if !f.options.distinct then { answer := .ok sample, state := f }
      else if f.seen.contains sample.render then solveWithin chooser attempts (repeats + 1) f
      else { answer := .ok sample, state := { f with seen := sample.render :: f.seen } }

/-- Gives a sample that satisfies the formula. -/
def solve (chooser : Chooser ρ) (f : Fuzzer ρ) : Reply (Fuzzer ρ) :=
  solveWithin chooser f.options.maxAttempts 0 f

/-- Draws at most a number of candidates for a mutant, after one that may be taken if no other
satisfies the formula. -/
def mutateWithin (chooser : Chooser ρ) (sample : Tree) (path : Path) (paths : List Path) :
    Nat → Tree → Fuzzer ρ → Reply (Fuzzer ρ)
  | 0, last, f => { answer := .ok last, state := f }
  | attempts + 1, last, f =>
    match f.expired? with
    | some e => { answer := .error e, state := f }
    | none =>
      let (chosen, draws) := chooser.element path paths f.draws
      let f := { f with draws }
      match sample.get? chosen with
      | none => mutateWithin chooser sample path paths attempts last f
      | some node =>
        let (subtree, f) := f.derive chooser node.symbol chosen.length
        match sample.replace? chosen subtree with
        | none => mutateWithin chooser sample path paths attempts last f
        | some mutant =>
          if f.formula.holds mutant then { answer := .ok mutant, state := f }
          else mutateWithin chooser sample path paths attempts mutant f

/-- Gives a mutant of a sample; a sample without nodes stays as it is. -/
def mutate (chooser : Chooser ρ) (sample : Tree) (f : Fuzzer ρ) : Reply (Fuzzer ρ) :=
  match sample.nodePaths with
  | [] => { answer := .ok sample, state := f }
  | path :: paths => mutateWithin chooser sample path paths (max 1 f.options.maxAttempts) sample f

/-- The fuzzer as a solver. -/
def solver (chooser : Chooser ρ) : Solver (Fuzzer ρ) where
  solve := solve chooser
  mutate := mutate chooser

end Fuzzer

end PreconditionMining
