/-
# What a fuzzer's count of samples counts

A fuzzer counts its memories.  Where samples are to be distinct these are the renderings of
the samples that were solved, each of them once, and the count is that of the different
renderings (`Run.distinctCount_of_distinct`).

Where samples may repeat no solving call remembers anything, and neither does any other
call (`solve_seen_of_repeatable`, `Run.seen_of_repeatable`); so the count stays nought, however
many samples are returned.  `distinctCount_iff` says when the count is the number of different
renderings, and what it is otherwise.
-/

import Mathlib.Data.List.Dedup
import PreconditionMining.Proofs.Fuzzer.Memory

namespace PreconditionMining

namespace Fuzzer

variable {ρ : Type} {chooser : Chooser ρ}

/-- How many different renderings there are among the trees that solving calls returned. -/
def Log.distinctSolved (log : Log) : Nat := (log.solved.map Tree.render).dedup.length

/-- Nothing was solved when there are no renderings to tell apart. -/
theorem Log.distinctSolved_eq_zero_iff {log : Log} : log.distinctSolved = 0 ↔ log.solved = [] := by
  rw [distinctSolved, List.length_eq_zero_iff, List.dedup_eq_nil, List.map_eq_nil_iff]

/-- **Where samples may repeat, a solving call remembers nothing.** -/
theorem solve_seen_of_repeatable {f : Fuzzer ρ} (repeatable : f.options.distinct = false) :
    (f.solve chooser).state.seen = f.seen := by
  cases time : f.expired? with
  | some e => rw [(solve_of_expired chooser time).2]
  | none =>
    rcases exists_firstAccepted_or f (f.derivations chooser f.options.maxAttempts) with
      ⟨earlier, t, first⟩ | passed
    · have task := sameTask_afterDerivations chooser (earlier.length + 1) f
      have forgets : (f.afterDerivations chooser (earlier.length + 1)).options.distinct ≠ true := by
        rw [task.options, repeatable]
        exact Bool.false_ne_true
      rw [solve_of_first time first, remember, if_neg forgets, seen_afterDerivations]
    · obtain ⟨e, -, idle, -⟩ := solve_of_none time passed
      rw [idle, seen_afterDerivations]

namespace Run

variable {start f : Fuzzer ρ} {log : Log}

/-- **Where samples may repeat, a run remembers nothing.** -/
theorem seen_of_repeatable (run : Run chooser start log f)
    (repeatable : start.options.distinct = false) : f.seen = start.seen := by
  induction run with
  | start => rfl
  | @call log f run c ih =>
    cases c with
    | solve => exact (solve_seen_of_repeatable (run.sameTask.options ▸ repeatable)).trans ih
    | mutate sample => exact (mutate_seen sample f).trans ih
  | late run c budget draws ih => exact ih

/-- **Where samples are to be distinct, a run counts the different renderings** of what it
solved. -/
theorem distinctCount_of_distinct (run : Run chooser start log f)
    (distinct : start.options.distinct = true) (fresh : start.seen = []) :
    f.distinctCount = log.distinctSolved := by
  obtain ⟨seen, nodup⟩ := run.remembers distinct fresh
  rw [distinctCount, Log.distinctSolved, ← seen, nodup.dedup]

end Run

/-- **The count is that of the different samples exactly where these are to be distinct.**  After
any calls of a fuzzer, in any order and with any samples to be mutated, it counts the different
renderings among the trees that its solving calls returned if samples are to be distinct; if they
may repeat, it counts none.  So the count is right when and only when samples are to be distinct or
nothing has been solved. -/
theorem distinctCount_iff {g : Grammar} {formula : Option Formula} {options : SolverOptions}
    {constraints : Constraints} {draws : ρ} {start f : Fuzzer ρ} {log : Log}
    (built : build g formula options constraints draws = .ok start)
    (run : Run chooser start log f) :
    f.distinctCount = (if options.distinct then log.distinctSolved else 0) ∧
      (f.distinctCount = log.distinctSolved ↔ options.distinct = true ∨ log.solved = []) := by
  have fresh := seen_of_build built
  have same : start.options = options := (of_build built).2.1
  cases distinct : options.distinct with
  | true =>
    have counted := run.distinctCount_of_distinct (same ▸ distinct) fresh
    exact ⟨counted, fun _ => .inl rfl, fun _ => counted⟩
  | false =>
    have none : f.distinctCount = 0 := by
      rw [distinctCount, run.seen_of_repeatable (same ▸ distinct), fresh, List.length_nil]
    refine ⟨none, ?_⟩
    rw [none, eq_comm, Log.distinctSolved_eq_zero_iff]
    exact ⟨.inr, fun solved => solved.resolve_left Bool.false_ne_true⟩

/-- A fuzzer for distinct letters that has solved `ab` and `b`, and mutated `b` in between, has
counted two samples. -/
theorem distinctCount_iff_letters :
    ∃ start log f, build letters none {} .empty [1, 0, 1, 0, 1] = .ok start ∧
      Run .scripted start log f ∧ log.solved.map Tree.render = ["ab", "b"] ∧
      f.distinctCount = 2 := by
  let calls : List Call := [.solve, .mutate (.node "<start>" [.terminal "b"]), .solve]
  have built := build_letters [1, 0, 1, 0, 1]
  have run : Run .scripted (ofLetters [1, 0, 1, 0, 1]) _ _ := run_makeCalls _ calls
  have solved : (makeCalls .scripted (ofLetters [1, 0, 1, 0, 1]) calls).1.solved.map Tree.render =
      ["ab", "b"] := by decide +kernel
  obtain ⟨count, -⟩ := distinctCount_iff built run
  refine ⟨_, _, _, built, run, solved, ?_⟩
  rw [count, if_pos rfl, Log.distinctSolved, solved]
  rfl

/-- **A fuzzer for letters that may repeat counts none,** although it has returned `b`. -/
theorem distinctCount_of_repeating_letters :
    ∃ start log f, build letters none { distinct := false } .empty [1] = .ok start ∧
      Run .scripted start log f ∧ log.solved.map Tree.render = ["b"] ∧ f.distinctCount = 0 ∧
      f.distinctCount ≠ log.distinctSolved := by
  let start : Fuzzer (List Nat) := { ofLetters [1] with options := { distinct := false } }
  have built : build letters none { distinct := false } .empty [1] = .ok start := by
    have finite : letters.minDepths.contains startSymbol = true := by decide +kernel
    simp [build, Constraints.compile, finite, start, ofLetters]
  have run : Run .scripted start _ _ := run_makeCalls start [.solve]
  have solved : (makeCalls .scripted start [.solve]).1.solved.map Tree.render = ["b"] := by
    decide +kernel
  have count : (makeCalls .scripted start [.solve]).2.distinctCount = 0 := by decide +kernel
  refine ⟨start, _, _, built, run, solved, count, ?_⟩
  rw [count, Log.distinctSolved, solved]
  exact Nat.zero_ne_one

end Fuzzer

end PreconditionMining
