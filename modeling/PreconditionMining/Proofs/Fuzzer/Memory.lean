/-
# The memory of a fuzzer

Where its samples are to be distinct, a fuzzer remembers how they read.  A solving call
that succeeds returns a sample that reads like none before, and remembers it; any other
call leaves the memory alone (`solve_seen`, `mutate_seen`), and so does a late one.

Step by step, what a fuzzer remembers are the renderings of the samples that its solving
calls returned, no two of them alike: `Remembers.step`, `Run.remembers`.

So what a solving call reports can be told from its derivations and from what was returned
before (`solve_reports_outcome`); it says that there is nothing new only when a sample that
it drew had been returned.  That it says so then can be relied on for calls of less than
2³¹ derivations: a call that repeats itself as often as that reports that it failed
(`solve_miscounts_repeats`).
-/

import PreconditionMining.Proofs.Fuzzer.Solving
import PreconditionMining.Proofs.Fuzzer.Soundness

namespace PreconditionMining

namespace Fuzzer

variable {ρ : Type} {chooser : Chooser ρ}

/-- The trees that solving calls returned, the latest first. -/
def Log.solved (log : Log) : List Tree :=
  log.filterMap fun
    | (.solve, .ok t) => some t
    | _ => none

/-- What a fuzzer may answer to a call, and the state that it is left in: what comes of the call
or, where there is a time budget, a late refusal. -/
inductive Answers (chooser : Chooser ρ) (f : Fuzzer ρ) (c : Call) :
    Except SolverError Tree → Fuzzer ρ → Prop
  | inTime : Answers chooser f c (f.call chooser c).answer (f.call chooser c).state
  | late {ms : Nat} (budget : f.options.timeoutMs = some ms) (draws : ρ) :
      Answers chooser f c (.error (.timeout ms)) { f with draws }

/-- One more call. -/
theorem Run.answers {start f f' : Fuzzer ρ} {log : Log} {c : Call}
    {answer : Except SolverError Tree} (run : Run chooser start log f)
    (answered : f.Answers chooser c answer f') : Run chooser start ((c, answer) :: log) f' := by
  cases answered with
  | inTime => exact run.call c
  | late budget draws => exact run.late c budget draws

/-- A mutation leaves the memory alone. -/
theorem mutateWithin_seen (sample : Tree) (path : Path) (paths : List Path) (attempts : Nat)
    (last : Tree) (f : Fuzzer ρ) :
    (mutateWithin chooser sample path paths attempts last f).state.seen = f.seen := by
  induction attempts generalizing last f with
  | zero => rfl
  | succ attempts ih =>
    unfold mutateWithin
    split
    · rfl
    · dsimp only
      split
      · exact ih last _
      · split
        · exact ih last _
        · split
          · rfl
          · exact ih _ _

theorem mutate_seen (sample : Tree) (f : Fuzzer ρ) :
    (f.mutate chooser sample).state.seen = f.seen := by
  unfold mutate
  split
  · rfl
  · exact mutateWithin_seen sample _ _ _ sample f

/-- **A solving call remembers what it returns,** and that is new; where it returns nothing, it
remembers nothing. -/
theorem solve_seen {f : Fuzzer ρ} (distinct : f.options.distinct = true) :
    (∀ t, (f.solve chooser).answer = .ok t →
      (f.solve chooser).state.seen = t.render :: f.seen ∧ t.render ∉ f.seen) ∧
    ∀ e, (f.solve chooser).answer = .error e → (f.solve chooser).state.seen = f.seen := by
  cases time : f.expired? with
  | some e =>
    obtain ⟨⟨e', refused⟩, idle⟩ := solve_of_expired chooser time
    rw [refused, idle]
    exact ⟨fun t ok => (by cases ok), fun _ _ => rfl⟩
  | none =>
    rcases exists_firstAccepted_or f (f.derivations chooser f.options.maxAttempts) with
      ⟨earlier, t, first⟩ | passed
    · have task := sameTask_afterDerivations chooser (earlier.length + 1) f
      rw [solve_of_first time first]
      refine ⟨fun u ok => ?_, fun e refused => by cases refused⟩
      obtain rfl := Except.ok.inj ok
      refine ⟨?_, first.taken.2 distinct⟩
      rw [seen_remember (task.options ▸ distinct), seen_afterDerivations]
    · obtain ⟨e, refused, idle, -⟩ := solve_of_none time passed
      rw [refused, idle, seen_afterDerivations]
      exact ⟨fun t ok => (by cases ok), fun _ _ => rfl⟩

namespace Answers

variable {f f' : Fuzzer ρ} {c : Call} {answer : Except SolverError Tree}

/-- An answer leaves the task alone. -/
theorem sameTask (answered : f.Answers chooser c answer f') : f.SameTask f' := by
  cases answered with
  | inTime => exact sameTask_call f c
  | late budget draws => exact .draws f draws

/-- **A sample that is returned is new,** and it is remembered. -/
theorem seen_cons {t : Tree} (distinct : f.options.distinct = true)
    (answered : f.Answers chooser .solve (.ok t) f') :
    f'.seen = t.render :: f.seen ∧ t.render ∉ f.seen := by
  generalize ok : Except.ok t = answer at answered
  cases answered with
  | inTime => exact (solve_seen distinct).1 t ok.symm
  | late budget draws => cases ok

/-- **All else leaves the memory alone:** mutations, refusals and late calls. -/
theorem seen_eq (distinct : f.options.distinct = true) (answered : f.Answers chooser c answer f')
    (other : ∀ t, c = .solve → answer ≠ .ok t) : f'.seen = f.seen := by
  cases answered with
  | late budget draws => rfl
  | inTime =>
    cases c with
    | mutate sample => exact mutate_seen sample f
    | solve =>
      rcases answer : (f.solve chooser).answer with e | t
      · exact (solve_seen distinct).2 e answer
      · exact absurd answer (other t rfl)

end Answers

namespace Log

@[simp] theorem solved_cons_ok (t : Tree) (log : Log) :
    solved ((.solve, .ok t) :: log) = t :: log.solved := rfl

/-- Only solving calls that succeed are counted. -/
theorem solved_cons_of_other {c : Call} {answer : Except SolverError Tree} {log : Log}
    (other : ∀ t, c = .solve → answer ≠ .ok t) : solved ((c, answer) :: log) = log.solved := by
  cases c with
  | mutate sample => rfl
  | solve =>
    cases answer with
    | error e => rfl
    | ok t => exact absurd rfl (other t rfl)

end Log

/-- What a fuzzer remembers: the renderings of the trees that its solving calls returned, all of
them different. -/
def Remembers (f : Fuzzer ρ) (log : Log) : Prop :=
  f.seen = log.solved.map Tree.render ∧ f.seen.Nodup

/-- **Each call keeps the memory in order.** -/
theorem Remembers.step {f f' : Fuzzer ρ} {log : Log} {c : Call} {answer : Except SolverError Tree}
    (distinct : f.options.distinct = true) (answered : f.Answers chooser c answer f')
    (remembers : f.Remembers log) : f'.Remembers ((c, answer) :: log) := by
  obtain ⟨seen, nodup⟩ := remembers
  by_cases solved : ∃ t, c = .solve ∧ answer = .ok t
  · obtain ⟨t, rfl, rfl⟩ := solved
    obtain ⟨later, new⟩ := answered.seen_cons distinct
    refine ⟨?_, ?_⟩
    · rw [later, seen, Log.solved_cons_ok, List.map_cons]
    · rw [later]
      exact List.nodup_cons.2 ⟨new, nodup⟩
  · have other : ∀ t, c = .solve → answer ≠ .ok t := fun t called ok => solved ⟨t, called, ok⟩
    have kept := answered.seen_eq distinct other
    refine ⟨?_, kept ▸ nodup⟩
    rw [kept, seen, Log.solved_cons_of_other other]

/-- **A run remembers what it solved.** -/
theorem Run.remembers {start f : Fuzzer ρ} {log : Log} (run : Run chooser start log f)
    (distinct : start.options.distinct = true) (fresh : start.seen = []) : f.Remembers log := by
  induction run with
  | start => exact ⟨fresh, fresh ▸ List.nodup_nil⟩
  | call run c ih => exact ih.step (run.sameTask.options ▸ distinct) .inTime
  | @late log f run c ms budget draws ih =>
    have late : f.Answers chooser c (.error (.timeout ms)) { f with draws } := .late budget draws
    exact ih.step (run.sameTask.options ▸ distinct) late

/-- A fuzzer is built without memories. -/
theorem seen_of_build {g : Grammar} {formula : Option Formula} {options : SolverOptions}
    {constraints : Constraints} {draws : ρ} {start : Fuzzer ρ}
    (built : build g formula options constraints draws = .ok start) : start.seen = [] := by
  unfold build at built
  split at built
  · cases built
  · split at built
    · cases built
      rfl
    · cases built

/-- **There is nothing new only for a fuzzer with memories,** which are of samples that it
returned. -/
theorem remembers_of_exhausted {f : Fuzzer ρ} (unspent : f.expired? = none)
    (nothingNew : (f.solve chooser).answer = .error .exhausted) :
    f.options.distinct = true ∧ f.seen ≠ [] := by
  obtain ⟨passed, counted⟩ := (solve_eq_exhausted_iff unspent).1 nothingNew
  obtain ⟨s, mem, fits⟩ := exists_holds_of_repeated counted
  obtain ⟨distinct, known⟩ : f.options.distinct = true ∧ s.render ∈ f.seen := by
    simpa [Accepts, fits] using passed s mem
  exact ⟨distinct, List.ne_nil_of_mem known⟩

/-- **What is remembered was returned,** where a fuzzer began without memories. -/
theorem Run.seen_eq {g : Grammar} {formula : Option Formula} {options : SolverOptions}
    {constraints : Constraints} {draws : ρ} {start f : Fuzzer ρ} {log : Log}
    (built : build g formula options constraints draws = .ok start) (run : Run chooser start log f)
    (distinct : options.distinct = true) : f.seen = log.solved.map Tree.render :=
  (run.remembers ((of_build built).2.1 ▸ distinct) (seen_of_build built)).1

/-- **A solving call reports what it found.**  Without a time budget it returns the first of its
derivations that is accepted, and draws nothing after it.  Where none is accepted it made all its
derivations, and the memory stays as it was; it says that there is nothing new if the count of
repeated samples is positive, and that it failed otherwise.  For calls of less than 2³¹ derivations
this means that there is nothing new when none is accepted but some satisfy the formula, and that
the call failed when none satisfies the formula.  There is nothing new only where samples are to be
distinct and some are remembered, which are those that were returned before. -/
theorem solve_reports_outcome {f : Fuzzer ρ} (timeless : f.options.timeoutMs = none)
    (chooser : Chooser ρ) :
    (∀ t, (f.solve chooser).answer = .ok t ↔
      ∃ earlier, f.FirstAccepted (f.derivations chooser f.options.maxAttempts) earlier t) ∧
    (∀ earlier t, f.FirstAccepted (f.derivations chooser f.options.maxAttempts) earlier t →
      (f.solve chooser).state.draws = (f.afterDerivations chooser (earlier.length + 1)).draws) ∧
    ((f.solve chooser).answer = .error .exhausted ↔
      (∀ s ∈ f.derivations chooser f.options.maxAttempts, ¬ f.Accepts s) ∧
        0 < f.repeated chooser) ∧
    ((∃ reason, (f.solve chooser).answer = .error (.failed reason)) ↔
      (∀ s ∈ f.derivations chooser f.options.maxAttempts, ¬ f.Accepts s) ∧
        ¬ 0 < f.repeated chooser) ∧
    (f.options.maxAttempts < Nat.pow 2 31 →
      ((f.solve chooser).answer = .error .exhausted ↔
        (∀ s ∈ f.derivations chooser f.options.maxAttempts, ¬ f.Accepts s) ∧
          ∃ s ∈ f.derivations chooser f.options.maxAttempts, f.formula.holds s = true) ∧
      ((∃ reason, (f.solve chooser).answer = .error (.failed reason)) ↔
        ∀ s ∈ f.derivations chooser f.options.maxAttempts, f.formula.holds s = false)) ∧
    (∀ e, (f.solve chooser).answer = .error e →
      (e = .exhausted ∨ ∃ reason, e = .failed reason) ∧
        (f.solve chooser).state = f.afterDerivations chooser f.options.maxAttempts ∧
        (f.solve chooser).state.seen = f.seen) ∧
    ((f.solve chooser).answer = .error .exhausted → f.options.distinct = true ∧ f.seen ≠ []) ∧
    ∀ g formula options constraints draws start log,
      build g formula options constraints draws = .ok start → Run chooser start log f →
        (options.distinct = true → f.seen = log.solved.map Tree.render) ∧
        (log.solved = [] → (f.solve chooser).answer ≠ .error .exhausted) := by
  have unspent := expired?_eq_none timeless
  have nothingNew : (f.solve chooser).answer = .error .exhausted ↔ _ :=
    solve_eq_exhausted_iff unspent
  refine ⟨fun t => solve_eq_ok_iff unspent, fun earlier t first => ?_, nothingNew,
    solve_failed_iff unspent, fun small => ⟨?_, solve_failed_iff_of_small unspent small⟩,
    fun e refused => ?_, remembers_of_exhausted unspent,
    fun g formula options constraints draws start log built run =>
      ⟨run.seen_eq built, fun unsolved exhausted => ?_⟩⟩
  · rw [solve_of_first unspent first, draws_remember]
  · rw [nothingNew, repeated_pos_iff small]
  · obtain ⟨e', answer, state, counted, uncounted⟩ :=
      solve_of_none unspent (passed_of_solve_eq_error unspent refused)
    obtain rfl : e' = e := by
      rw [answer] at refused
      exact Except.error.inj refused
    refine ⟨?_, state, by rw [state, seen_afterDerivations]⟩
    rw [counted, uncounted]
    exact Decidable.em _
  · obtain ⟨distinct, memories⟩ := remembers_of_exhausted unspent exhausted
    rw [run.sameTask.options, (of_build built).2.1] at distinct
    exact memories (by rw [run.seen_eq built distinct, unsolved, List.map_nil])

/-- A fuzzer for letters that has returned `b` says that there is nothing new when both samples
that it may draw read `b`. -/
theorem solve_reports_outcome_letters :
    ∃ start log f, build letters none { maxAttempts := 2 } .empty [1, 1, 1] = .ok start ∧
      Run .scripted start log f ∧ f.options.timeoutMs = none ∧
      log.solved.map Tree.render = ["b"] ∧ (f.solve .scripted).answer = .error .exhausted ∧
      (f.solve .scripted).state.seen = ["b"] := by
  let start : Fuzzer (List Nat) := { ofLetters [1, 1, 1] with options := { maxAttempts := 2 } }
  have built : build letters none { maxAttempts := 2 } .empty [1, 1, 1] = .ok start := by
    have finite : letters.minDepths.contains startSymbol = true := by decide +kernel
    simp [build, Constraints.compile, finite, start, ofLetters]
  have run : Run .scripted start _ _ := run_makeCalls start [.solve]
  have timeless : (makeCalls .scripted start [.solve]).2.options.timeoutMs = none := by decide +kernel
  obtain ⟨-, -, -, -, small, refused, -, memory⟩ := solve_reports_outcome timeless .scripted
  have seen := (memory _ _ _ _ _ _ _ built run).1 rfl
  have solved : (makeCalls .scripted start [.solve]).1.solved.map Tree.render = ["b"] := by
    decide +kernel
  have nothingNew := (small (by decide +kernel)).1.2 ⟨by decide +kernel, by decide +kernel⟩
  exact ⟨start, _, _, built, run, timeless, solved, nothingNew,
    by rw [(refused _ nothingNew).2.2, seen, solved]⟩

/-- A fuzzer that derives one tree only, whatever it has derived before. -/
theorem derivations_of_fixed {f : Fuzzer ρ} {t : Tree}
    (fixed : f.derive chooser startSymbol 0 = (t, f)) (n : Nat) :
    f.derivations chooser n = List.replicate n t := by
  induction n with
  | zero => rfl
  | succ n ih =>
    rw [derivations, fixed, List.replicate_succ]
    exact congrArg (t :: ·) ih

/-- A fuzzer for letters that derives shallow trees only, with some memories. -/
def shallow (seen : List String) : Fuzzer (List Nat) :=
  { ofLetters [] with options := { maxAttempts := Nat.pow 2 31, maxDepth := 0 }, seen }

theorem derive_shallow (seen : List String) :
    (shallow seen).derive .scripted startSymbol 0 =
      (.node "<start>" [.terminal "b"], shallow seen) := by
  have tree : ((shallow []).expansions.derive 0 .scripted startSymbol 0 []) =
      (.node "<start>" [.terminal "b"], []) := by decide +kernel
  exact congrArg (fun out => (out.1, { shallow seen with draws := out.2 })) tree

/-- A fuzzer with one sample returns it, and with 2³¹ attempts it then reports that no sample
satisfies the formula, although each of those that it drew does. -/
theorem solve_miscounts_repeats :
    ∃ start log f,
      build letters none { maxAttempts := Nat.pow 2 31, maxDepth := 0 } .empty [] = .ok start ∧
      Run .scripted start log f ∧ f.options.timeoutMs = none ∧
      log.solved.map Tree.render = ["b"] ∧
      f.derivations .scripted f.options.maxAttempts ≠ [] ∧
      (∀ s ∈ f.derivations .scripted f.options.maxAttempts,
        f.formula.holds s = true ∧ ¬ f.Accepts s) ∧
      ∃ reason, (f.solve .scripted).answer = .error (.failed reason) := by
  have built : build letters none { maxAttempts := Nat.pow 2 31, maxDepth := 0 } .empty [] =
      .ok (shallow []) := by
    have finite : letters.minDepths.contains startSymbol = true := by decide +kernel
    simp [build, Constraints.compile, finite, shallow, ofLetters]
  have drawn : ∀ seen, (shallow seen).derivations .scripted (Nat.pow 2 31) =
      List.replicate (Nat.pow 2 31) (.node "<start>" [.terminal "b"]) :=
    fun seen => derivations_of_fixed (derive_shallow seen) _
  have first : (shallow []).FirstAccepted
      ((shallow []).derivations .scripted (Nat.pow 2 31)) [] (.node "<start>" [.terminal "b"]) :=
    ⟨⟨List.replicate 2147483647 _, drawn []⟩, fun _ mem => absurd mem List.not_mem_nil,
      by decide +kernel⟩
  have remembered : ((shallow []).afterDerivations .scripted 1).remember
      (.node "<start>" [.terminal "b"]) = shallow ["b"] := by
    rw [afterDerivations, derive_shallow]
    rfl
  have solved : (shallow []).solve .scripted =
      { answer := .ok (.node "<start>" [.terminal "b"]), state := shallow ["b"] } := by
    rw [← remembered]
    exact solve_of_first rfl first
  have run : Run .scripted (shallow []) [(.solve, .ok (.node "<start>" [.terminal "b"]))]
      (shallow ["b"]) := by
    have begun : Run .scripted (shallow []) [] (shallow []) := .start
    have called := begun.call .solve
    rw [call, solved] at called
    exact called
  have all : ∀ s ∈ (shallow ["b"]).derivations .scripted (Nat.pow 2 31),
      (shallow ["b"]).formula.holds s = true ∧ ¬ (shallow ["b"]).Accepts s := by
    intro s mem
    rw [drawn] at mem
    obtain rfl := List.eq_of_mem_replicate mem
    exact ⟨rfl, by decide +kernel⟩
  have count : (shallow ["b"]).repeated .scripted = .ofNat (Nat.pow 2 31) := by
    refine congrArg Int32.ofNat ?_
    show ((shallow ["b"]).derivations .scripted (Nat.pow 2 31)).countP _ = _
    rw [List.countP_eq_length.2 fun s mem => (all s mem).1, length_derivations]
  refine ⟨shallow [], _, shallow ["b"], built, run, rfl, rfl, ?_, all,
    (solve_failed_iff rfl).2 ⟨fun s mem => (all s mem).2, ?_⟩⟩
  · exact List.ne_nil_of_length_pos (by rw [length_derivations]; decide)
  · rw [count]
    decide

end Fuzzer

end PreconditionMining
