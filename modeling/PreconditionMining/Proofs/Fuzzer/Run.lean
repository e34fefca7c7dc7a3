/-
# Runs of a fuzzer

A fuzzer is called again and again, in any order of `solve` and `mutate`, and
each call is entered in a log with its answer (`Fuzzer.Run`).  Where the calls
have a time budget, a call may also be late: it refuses, and leaves draws behind
that nobody foresaw.

A call changes the draws and the memory of a fuzzer, never its task
(`Fuzzer.SameTask`).  What it answers is a tree derived from the start symbol, or
a sample of which one node was derived anew; so a property of these is one of all
trees that a fuzzer returns, as long as it is shown its own samples only
(`Fuzzer.Run.forall_returned`).
-/

import PreconditionMining.Fuzzer.Basic
import PreconditionMining.Proofs.Tree.Enumeration

namespace PreconditionMining

namespace Fuzzer

variable {ρ : Type} {chooser : Chooser ρ}

/-- What a fuzzer is asked. -/
inductive Call
  | solve
  | mutate (sample : Tree)
deriving DecidableEq

/-- What comes of a call. -/
def call (chooser : Chooser ρ) (f : Fuzzer ρ) : Call → Reply (Fuzzer ρ)
  | .solve => f.solve chooser
  | .mutate sample => f.mutate chooser sample

instance : DecidableEq (Except SolverError Tree)
  | .ok t, .ok u => decidable_of_iff (t = u) (by simp)
  | .error d, .error e => decidable_of_iff (d = e) (by simp)
  | .ok _, .error _ => isFalse (by simp)
  | .error _, .ok _ => isFalse (by simp)

/-- The calls of a fuzzer with their answers, the latest first. -/
abbrev Log := List (Call × Except SolverError Tree)

/-- The trees that a fuzzer returned. -/
def Log.returned (log : Log) : List Tree := log.filterMap fun entry => entry.2.toOption

@[simp] theorem Log.mem_returned_cons {c : Call} {answer : Except SolverError Tree} {log : Log}
    {t : Tree} : t ∈ returned ((c, answer) :: log) ↔ answer = .ok t ∨ t ∈ log.returned := by
  unfold returned
  rw [List.filterMap_cons]
  cases answer with
  | error e => simp [Except.toOption]
  | ok u => simp [Except.toOption, eq_comm]

/-- Each sample that was to be mutated had been returned before. -/
def Log.OwnSamples : Log → Prop
  | [] => True
  | (.solve, _) :: log => OwnSamples log
  | (.mutate sample, _) :: log => sample ∈ returned log ∧ OwnSamples log

theorem Log.OwnSamples.earlier {c : Call} {answer : Except SolverError Tree} {log : Log}
    (own : OwnSamples ((c, answer) :: log)) : log.OwnSamples := by
  cases c with
  | solve => exact own
  | mutate sample => exact own.2

/-- **The runs of a fuzzer:** any calls, one after another.  Where there is a time budget, each
of them may be late. -/
inductive Run (chooser : Chooser ρ) (start : Fuzzer ρ) : Log → Fuzzer ρ → Prop
  | start : Run chooser start [] start
  | call {log : Log} {f : Fuzzer ρ} (run : Run chooser start log f) (c : Call) :
      Run chooser start ((c, (f.call chooser c).answer) :: log) (f.call chooser c).state
  | late {log : Log} {f : Fuzzer ρ} (run : Run chooser start log f) (c : Call) {ms : Nat}
      (budget : f.options.timeoutMs = some ms) (draws : ρ) :
      Run chooser start ((c, .error (.timeout ms)) :: log) { f with draws }

/-- Makes calls, of which the last in the list is the first, none of them late. -/
def makeCalls (chooser : Chooser ρ) (start : Fuzzer ρ) : List Call → Log × Fuzzer ρ
  | [] => ([], start)
  | c :: earlier =>
    let (log, f) := makeCalls chooser start earlier
    ((c, (f.call chooser c).answer) :: log, (f.call chooser c).state)

theorem run_makeCalls (start : Fuzzer ρ) :
    ∀ calls : List Call,
      Run chooser start (makeCalls chooser start calls).1 (makeCalls chooser start calls).2
  | [] => .start
  | c :: earlier => (run_makeCalls start earlier).call c

/-- A call without a time budget does not run out of time. -/
theorem expired?_eq_none {f : Fuzzer ρ} (timeless : f.options.timeoutMs = none) :
    f.expired? = none := by
  rw [expired?, timeless]

/-- Two states of a fuzzer that differ in the draws and in the memory at most. -/
structure SameTask (f f' : Fuzzer ρ) : Prop where
  expansions : f'.expansions = f.expansions
  formula : f'.formula = f.formula
  options : f'.options = f.options

namespace SameTask

theorem refl (f : Fuzzer ρ) : f.SameTask f := ⟨rfl, rfl, rfl⟩

theorem trans {f f' f'' : Fuzzer ρ} (h : f.SameTask f') (h' : f'.SameTask f'') : f.SameTask f'' :=
  ⟨h'.expansions.trans h.expansions, h'.formula.trans h.formula, h'.options.trans h.options⟩

theorem draws (f : Fuzzer ρ) (r : ρ) : f.SameTask { f with draws := r } := ⟨rfl, rfl, rfl⟩

theorem derive (f : Fuzzer ρ) (symbol : String) (depth : Nat) :
    f.SameTask (f.derive chooser symbol depth).2 := ⟨rfl, rfl, rfl⟩

end SameTask

/-- A tree that a fuzzer derives from a symbol at a depth, with some draws. -/
def Draws (chooser : Chooser ρ) (f : Fuzzer ρ) (symbol : String) (depth : Nat) (t : Tree) : Prop :=
  ∃ r, (f.expansions.derive f.options.maxDepth chooser symbol depth r).1 = t

theorem draws_derive (f : Fuzzer ρ) (symbol : String) (depth : Nat) :
    f.Draws chooser symbol depth (f.derive chooser symbol depth).1 := ⟨f.draws, rfl⟩

theorem Draws.of_sameTask {f f' : Fuzzer ρ} (h : f.SameTask f') {symbol : String} {depth : Nat}
    {t : Tree} (drawn : f'.Draws chooser symbol depth t) : f.Draws chooser symbol depth t := by
  obtain ⟨r, rfl⟩ := drawn
  exact ⟨r, by rw [h.expansions, h.options]⟩

/-- A tree that comes of a sample when one of its nodes is derived anew. -/
def Mutates (chooser : Chooser ρ) (f : Fuzzer ρ) (sample t : Tree) : Prop :=
  ∃ path s cs subtree, sample.get? path = some (.node s cs) ∧
    f.Draws chooser s path.length subtree ∧ sample.replace? path subtree = some t

theorem Mutates.of_sameTask {f f' : Fuzzer ρ} (h : f.SameTask f') {sample t : Tree}
    (mutant : f'.Mutates chooser sample t) : f.Mutates chooser sample t := by
  obtain ⟨path, s, cs, subtree, found, drawn, replaced⟩ := mutant
  exact ⟨path, s, cs, subtree, found, drawn.of_sameTask h, replaced⟩

/-- What a solving call comes to. -/
theorem solveWithin_spec (attempts : Nat) (repeats : Int32) (f : Fuzzer ρ) :
    f.SameTask (solveWithin chooser attempts repeats f).state ∧
      ∀ t, (solveWithin chooser attempts repeats f).answer = .ok t →
        f.Draws chooser startSymbol 0 t := by
  induction attempts generalizing repeats f with
  | zero =>
    unfold solveWithin exhausted
    split
    · exact ⟨.refl f, fun t ok => by cases ok⟩
    · exact ⟨.refl f, fun t ok => by cases ok⟩
  | succ attempts ih =>
    have task : f.SameTask (f.derive chooser startSymbol 0).2 := .derive f startSymbol 0
    have again : ∀ repeats,
        f.SameTask (solveWithin chooser attempts repeats (f.derive chooser startSymbol 0).2).state ∧
          ∀ t, (solveWithin chooser attempts repeats
            (f.derive chooser startSymbol 0).2).answer = .ok t →
              f.Draws chooser startSymbol 0 t := by
      intro repeats
      obtain ⟨task', drawn⟩ := ih repeats (f.derive chooser startSymbol 0).2
      exact ⟨task.trans task', fun t ok => (drawn t ok).of_sameTask task⟩
    have fresh : ∀ t, Except.ok (f.derive chooser startSymbol 0).1 = Except.ok (ε := SolverError) t →
        f.Draws chooser startSymbol 0 t := by
      intro t eq
      obtain rfl := Except.ok.inj eq
      exact draws_derive f startSymbol 0
    unfold solveWithin
    split
    · exact ⟨.refl f, fun t ok => by cases ok⟩
    · dsimp only
      split
      · exact again repeats
      · split
        · exact ⟨task, fresh⟩
        · split
          · exact again (repeats + 1)
          · exact ⟨⟨rfl, rfl, rfl⟩, fresh⟩

/-- What a mutating call comes to. -/
theorem mutateWithin_spec {sample : Tree} {path : Path} {paths : List Path}
    (nodes : sample.nodePaths = path :: paths) (attempts : Nat) (last : Tree) (f : Fuzzer ρ) :
    f.SameTask (mutateWithin chooser sample path paths attempts last f).state ∧
      ∀ t, (mutateWithin chooser sample path paths attempts last f).answer = .ok t →
        t = last ∨ f.Mutates chooser sample t := by
  induction attempts generalizing last f with
  | zero => exact ⟨.refl f, fun t ok => .inl (Except.ok.inj ok).symm⟩
  | succ attempts ih =>
    unfold mutateWithin
    split
    · exact ⟨.refl f, fun t ok => by cases ok⟩
    · dsimp only
      have chosen := nodes ▸ chooser.element_mem path paths f.draws
      generalize chooser.element path paths f.draws = choice at chosen
      obtain ⟨p, r⟩ := choice
      obtain ⟨s, cs, found⟩ := Tree.mem_nodePaths.1 chosen
      have task : f.SameTask (derive chooser { f with draws := r } s p.length).2 :=
        (SameTask.draws f r).trans (.derive _ s p.length)
      have drawn : f.Draws chooser s p.length (derive chooser { f with draws := r } s p.length).1 :=
        (draws_derive _ s p.length).of_sameTask (.draws f r)
      simp only [found]
      split
      · obtain ⟨task', mutant⟩ := ih last (derive chooser { f with draws := r } s p.length).2
        refine ⟨task.trans task', fun t ok => ?_⟩
        exact (mutant t ok).imp_right fun h => h.of_sameTask task
      · next mutant replaced =>
        have made : f.Mutates chooser sample mutant := ⟨p, s, cs, _, found, drawn, replaced⟩
        split
        · exact ⟨task, fun t ok => .inr (Except.ok.inj ok ▸ made)⟩
        · obtain ⟨task', later⟩ := ih mutant (derive chooser { f with draws := r } s p.length).2
          refine ⟨task.trans task', fun t ok => .inr ?_⟩
          rcases later t ok with rfl | h
          · exact made
          · exact h.of_sameTask task

theorem mutate_spec (sample : Tree) (f : Fuzzer ρ) :
    f.SameTask (f.mutate chooser sample).state ∧
      ∀ t, (f.mutate chooser sample).answer = .ok t → t = sample ∨ f.Mutates chooser sample t := by
  unfold mutate
  split
  · exact ⟨.refl f, fun t ok => .inl (Except.ok.inj ok).symm⟩
  · next nodes => exact mutateWithin_spec nodes _ sample f

/-- A call leaves the task alone. -/
theorem sameTask_call (f : Fuzzer ρ) (c : Call) : f.SameTask (f.call chooser c).state := by
  cases c with
  | solve => exact (solveWithin_spec _ 0 f).1
  | mutate sample => exact (mutate_spec sample f).1

namespace Run

variable {start f : Fuzzer ρ} {log : Log}

/-- **A run leaves the task alone.** -/
theorem sameTask (run : Run chooser start log f) : start.SameTask f := by
  induction run with
  | start => exact .refl start
  | call _ c ih => exact ih.trans (sameTask_call _ c)
  | late _ c _ draws ih => exact ih.trans (.draws _ draws)

/-- **A property of fresh samples that mutants inherit** is one of all trees that a fuzzer
returns when it is shown its own samples. -/
theorem forall_returned {P : Tree → Prop} (run : Run chooser start log f) (own : log.OwnSamples)
    (fresh : ∀ t, start.Draws chooser startSymbol 0 t → P t)
    (mutant : ∀ sample t, P sample → start.Mutates chooser sample t → P t) :
    ∀ t ∈ log.returned, P t := by
  induction run with
  | start => simp [Log.returned]
  | @call log f run c ih =>
    have good := ih own.earlier
    intro t mem
    rcases Log.mem_returned_cons.1 mem with ok | mem
    · cases c with
      | solve => exact fresh t (((solveWithin_spec _ 0 f).2 t ok).of_sameTask run.sameTask)
      | mutate sample =>
        rcases (mutate_spec sample f).2 t ok with rfl | made
        · exact good t own.1
        · exact mutant sample t (good sample own.1) (made.of_sameTask run.sameTask)
    · exact good t mem
  | late run c budget draws ih =>
    intro t mem
    rcases Log.mem_returned_cons.1 mem with refused | mem
    · cases refused
    · exact ih own.earlier t mem

end Run

end Fuzzer

end PreconditionMining
