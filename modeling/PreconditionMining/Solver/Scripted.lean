/-
# A scripted solver

A solver whose answers are fixed beforehand.  It gives its samples one after
another, any of which may be a refusal instead, and then always refuses.  A
mutant is the rendering of the sample, perhaps without its last character, with
one of some endings, which take turns.  One of its mutations may be refused.

A scripted factory builds scripted solvers from scripts that take turns, any of
which may be a refusal to build instead.
-/

import PreconditionMining.Solver.Basic

namespace PreconditionMining

/-- What a scripted solver does. -/
structure SolverScript where
  samples : List (Except SolverError Tree) := []
  /-- The refusal when no sample is left. -/
  ending : SolverError := .exhausted
  endings : List String := []
  dropsLast : Bool := false
  /-- Which mutation, counted from 1, is refused. -/
  failsAt : Option Nat := none
  mutationError : SolverError := .exhausted

/-- A scripted solver at work: the samples left, and the calls made so far. -/
structure ScriptedSolver where
  script : SolverScript
  remaining : List (Except SolverError Tree)
  solved : Nat := 0
  mutated : Nat := 0

namespace ScriptedSolver

/-- A scripted solver before its first call. -/
def start (script : SolverScript) : ScriptedSolver := { script, remaining := script.samples }

/-- The next sample. -/
def solve (s : ScriptedSolver) : Reply ScriptedSolver :=
  let state := { s with solved := s.solved + 1, remaining := s.remaining.tail }
  match s.remaining with
  | [] => { answer := .error s.script.ending, state }
  | answer :: _ => { answer, state }

/-- The mutant of a sample that call number `k` gives. -/
def mutant (script : SolverScript) (k : Nat) (sample : Tree) : Tree :=
  match script.endings[(k - 1) % script.endings.length]? with
  | none => sample
  | some ending =>
    let text := sample.render
    let kept := if script.dropsLast then String.ofList text.toList.dropLast else text
    .terminal (kept ++ ending)

/-- A mutant of a sample. -/
def mutate (sample : Tree) (s : ScriptedSolver) : Reply ScriptedSolver :=
  let k := s.mutated + 1
  let state := { s with mutated := k }
  if s.script.failsAt = some k then { answer := .error s.script.mutationError, state }
  else { answer := .ok (mutant s.script k sample), state }

/-- The scripted solver. -/
def solver : Solver ScriptedSolver := ⟨solve, mutate⟩

end ScriptedSolver

/-- A builder of scripted solvers: its scripts, and how many solvers were asked for. -/
structure ScriptedFactory where
  scripts : List (Except SolverError SolverScript)
  builds : Nat := 0

namespace ScriptedFactory

/-- Builds the next solver.  Nothing is built where there are no scripts. -/
def create (f : ScriptedFactory) : Except SolverError ScriptedSolver × ScriptedFactory :=
  let built :=
    match f.scripts[f.builds % f.scripts.length]? with
    | none => .error (.failed "no script")
    | some script => script.map .start
  (built, { f with builds := f.builds + 1 })

end ScriptedFactory

end PreconditionMining
