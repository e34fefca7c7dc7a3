/-
# Pools accumulate over attempts

A learning run is asked for its next attempt, time and again.  What happens between two
of its attempts is left open here: each of them may be asked for in any session
(`LearningRun.after`, `LearningRun.yields`).

An attempt that succeeds adds what its discovery found and is numbered by one more than
the attempt before (`next_ok`).  A call that yields anything else ends the run for good
(`ended_of_next`, `after_of_ended`).  So the attempts that a run yields are the first
that it is asked for, and by induction on these its pools are everything that was
discovered, in order (`History.cons`, `exists_history`).  With the record of what the learner is asked,
`accumulates` says all of this of the run as its learner sees it.
-/

import PreconditionMining.Proofs.Suite.Agreement
import PreconditionMining.Proofs.Suite.Requests

namespace PreconditionMining

/-- The sum of some sizes, pool by pool. -/
def PoolSizes.sum : List PoolSizes → PoolSizes
  | [] => zero
  | s :: rest => ⟨s.positive + (sum rest).positive, s.negative + (sum rest).negative⟩

/-- An attempt that a run yielded, with the session in which it was asked for and the discovery
that was made for it. -/
structure Yielded (φ κ : Type) where
  session : Session φ κ
  discovery : Discovery
  attempt : Attempt

namespace Yielded

variable {φ κ : Type}

/-- The samples of all discoveries, in the order of the attempts. -/
def pools (history : List (Yielded φ κ)) : Pools :=
  ⟨history.flatMap fun y => y.discovery.pools.positive,
    history.flatMap fun y => y.discovery.pools.negative⟩

theorem pools_cons (y : Yielded φ κ) (history : List (Yielded φ κ)) :
    pools (y :: history) = y.discovery.pools ++ pools history := rfl

/-- As many samples were discovered as the discoveries of the single attempts found. -/
theorem sizes_pools (history : List (Yielded φ κ)) :
    (pools history).sizes = .sum (history.map fun y => y.discovery.pools.sizes) := by
  induction history with
  | nil => rfl
  | cons y history ih =>
    rw [List.map_cons, PoolSizes.sum, ← ih]
    simp [pools, Pools.sizes]

end Yielded

namespace LearningRun

variable {φ σ κ : Type} (c : Collaborators φ σ κ) (ctx : Context)

/-- A run after it was asked for its next attempt in some sessions, one after another. -/
def after : LearningRun → List (Session φ κ) → LearningRun
  | r, [] => r
  | r, s :: later => after (r.next c ctx s).2.1 later

/-- What a run yields when it is asked for its next attempt in some sessions, one after
another. -/
def yields : LearningRun → List (Session φ κ) → List (Option (Except ConditionError Attempt))
  | _, [] => []
  | r, s :: later => (r.next c ctx s).1 :: yields (r.next c ctx s).2.1 later

theorem test_next (r : LearningRun) (s : Session φ κ) : (r.next c ctx s).2.1.test = r.test := by
  rw [next]
  split
  · rfl
  · exact (attempt_counts c ctx r s).1

variable {c ctx} {r : LearningRun} {s : Session φ κ} {a : Attempt}

/-- **A run that has ended stays as it is.** -/
theorem after_of_ended (h : r.Ended) : ∀ later : List (Session φ κ), r.after c ctx later = r
  | [] => rfl
  | s :: later => by
    rw [after, next_of_ended h s]
    exact after_of_ended h later

/-- **What yields no attempt ends the run.** -/
theorem ended_of_next (h : ∀ a, (r.next c ctx s).1 ≠ some (.ok a)) :
    (r.next c ctx s).2.1.Ended := by
  by_cases ended : r.Ended
  · rw [next_of_ended ended]
    exact ended
  · rw [next_of_not_ended ended] at h ⊢
    rcases made : r.attempt c ctx s with ⟨e | a, r', s'⟩
    · exact .inl rfl
    · exact absurd (by rw [made]) (h a)

/-- What an attempt that succeeds says of its run. -/
theorem attempt_ok {r' : LearningRun} {s' : Session φ κ}
    (made : r.attempt c ctx s = (.ok a, r', s')) :
    ∃ d, (s.discover c ctx r.test).1 = .ok d ∧ r'.pools = r.pools ++ d.pools ∧
      a.discovered = d.pools.sizes ∧ a.accumulated = r'.pools.sizes := by
  rw [attempt] at made
  rcases found : s.discover c ctx r.test with ⟨e | d, s₁⟩ <;> simp only [found] at made
  · cases made
  · rcases named : candidates c ctx { r with made := r.made + 1, pools := r.pools ++ d.pools } s₁
      with ⟨e | candidates, s₂⟩ <;> simp only [named] at made
    · cases made
    · cases made
      exact ⟨d, rfl, rfl, rfl, rfl⟩

/-- **An attempt that is yielded** adds what its discovery found to the pools, tells the sizes of
both, and is numbered by the attempts made. -/
theorem next_ok (ok : (r.next c ctx s).1 = some (.ok a)) :
    (r.next c ctx s).2.1.test = r.test ∧ (r.next c ctx s).2.1.made = r.made + 1 ∧
      a.number = r.made + 1 ∧ a.accumulated = (r.next c ctx s).2.1.pools.sizes ∧
      ∃ d, (s.discover c ctx r.test).1 = .ok d ∧ a.discovered = d.pools.sizes ∧
        (r.next c ctx s).2.1.pools = r.pools ++ d.pools := by
  by_cases ended : r.Ended
  · rw [next_of_ended ended] at ok
    cases ok
  · obtain ⟨test, -, count, numbered⟩ := attempt_counts c ctx r s
    rw [next_of_not_ended ended] at ok ⊢
    rcases made : r.attempt c ctx s with ⟨item, r', s'⟩
    rw [made] at ok test count numbered
    obtain rfl := Option.some.inj ok
    obtain ⟨d, found, pools, discovered, accumulated⟩ := attempt_ok made
    exact ⟨test, count, numbered a rfl, accumulated, d, found, discovered, pools⟩

/-- A run stays with its test. -/
theorem test_after (r : LearningRun) (later : List (Session φ κ)) :
    (r.after c ctx later).test = r.test := by
  induction later generalizing r with
  | nil => rfl
  | cons s later ih => exact (ih _).trans (test_next c ctx r s)

theorem after_concat (r : LearningRun) (earlier : List (Session φ κ)) (s : Session φ κ) :
    r.after c ctx (earlier ++ [s]) = ((r.after c ctx earlier).next c ctx s).2.1 := by
  induction earlier generalizing r with
  | nil => rfl
  | cons z earlier ih => exact ih _

/-- **For an attempt that it yields, a run asks the learner once,** and for the pools that it then
has. -/
theorem next_withRequests (requests : List LearningRequest)
    (ok : (r.next c ctx s).1 = some (.ok a)) :
    r.next c.recordingRequests ctx (s.withRequests requests) =
      (some (.ok a), (r.next c ctx s).2.1, (r.next c ctx s).2.2.withRequests
        (requests ++ [(r.next c ctx s).2.1.request ctx])) := by
  by_cases ended : r.Ended
  · rw [next_of_ended ended] at ok
    cases ok
  · rw [next_of_not_ended ended] at ok ⊢
    rw [next_of_not_ended ended]
    rcases made : r.attempt c ctx s with ⟨item, r', s'⟩
    rw [made] at ok
    obtain rfl := Option.some.inj ok
    rw [attempt_withRequests c ctx requests made]
    rfl

/-- **The history of a run** that was called in some sessions and yielded an attempt at last: each
call yielded an attempt, the samples of their discoveries are pooled in order behind those that
the run had, and the last attempt tells so. -/
structure History (c : Collaborators φ σ κ) (ctx : Context) (r : LearningRun)
    (calls : List (Session φ κ)) (a : Attempt) (history : List (Yielded φ κ)) : Prop where
  sessions : history.map (·.session) = calls
  yielded : r.yields c ctx calls = history.map fun y => some (.ok y.attempt)
  discovered : ∀ y ∈ history, (y.session.discover c ctx r.test).1 = .ok y.discovery ∧
    y.attempt.discovered = y.discovery.pools.sizes
  pools : (r.after c ctx calls).pools = r.pools ++ Yielded.pools history
  number : a.number = r.made + history.length
  total : a.accumulated = (r.after c ctx calls).pools.sizes
  dominates : ∀ y ∈ history, a.accumulated.dominates y.attempt.accumulated = true

/-- The history of one call. -/
theorem History.first (ok : (r.next c ctx s).1 = some (.ok a)) :
    ∃ y, r.History c ctx [s] a [y] := by
  obtain ⟨-, -, number, accumulated, d, found, discovered, pools⟩ := next_ok ok
  have single : Yielded.pools [⟨s, d, a⟩] = d.pools := by
    rw [Yielded.pools_cons]
    exact Pools.append_empty d.pools
  refine ⟨⟨s, d, a⟩, rfl, ?_, ?_, ?_, number, accumulated, ?_⟩
  · rw [yields, ok]
    rfl
  · simpa using ⟨found, discovered⟩
  · rw [single]
    exact pools
  · simp [PoolSizes.dominates]

/-- **One call more in front** is one attempt more in the history. -/
theorem History.cons {z : Session φ κ} {b : Attempt} {calls : List (Session φ κ)}
    {history : List (Yielded φ κ)} (first : (r.next c ctx z).1 = some (.ok b))
    (h : (r.next c ctx z).2.1.History c ctx calls a history) :
    ∃ y, r.History c ctx (z :: calls) a (y :: history) := by
  obtain ⟨test, count, -, accumulated, d, found, discovered, pools⟩ := next_ok first
  have whole : (r.after c ctx (z :: calls)).pools = r.pools ++ d.pools ++ Yielded.pools history := by
    rw [← pools]
    exact h.pools
  refine ⟨⟨z, d, b⟩, ?_, ?_, ?_, ?_, ?_, h.total, ?_⟩
  · rw [List.map_cons, h.sessions]
  · rw [yields, first, h.yielded]
    rfl
  · exact List.forall_mem_cons.2 ⟨⟨found, discovered⟩, test ▸ h.discovered⟩
  · rw [whole, Yielded.pools_cons, Pools.append_assoc]
  · rw [h.number, count, List.length_cons]
    omega
  · have grown : a.accumulated.dominates b.accumulated = true := by
      have total : a.accumulated = (r.after c ctx (z :: calls)).pools.sizes := h.total
      rw [total, whole, accumulated, pools]
      exact Pools.sizes_append_dominates _ _
    exact List.forall_mem_cons.2 ⟨grown, h.dominates⟩

/-- **A run that yields an attempt has a history.** -/
theorem exists_history :
    ∀ (earlier : List (Session φ κ)) {r : LearningRun} {s : Session φ κ} {a : Attempt},
      ((r.after c ctx earlier).next c ctx s).1 = some (.ok a) →
        ∃ history, r.History c ctx (earlier ++ [s]) a history
  | [], r, s, a, ok => by
    obtain ⟨y, history⟩ := History.first ok
    exact ⟨[y], history⟩
  | z :: earlier, r, s, a, ok => by
    rw [after] at ok
    -- had the first call yielded anything else, the last one would have found the run ended
    have yielded : ∃ b, (r.next c ctx z).1 = some (.ok b) := by
      refine Classical.byContradiction fun none => ?_
      have ended : (r.next c ctx z).2.1.Ended := ended_of_next fun b first => none ⟨b, first⟩
      rw [after_of_ended ended, next_of_ended ended] at ok
      cases ok
    obtain ⟨b, first⟩ := yielded
    obtain ⟨history, later⟩ := exists_history earlier ok
    obtain ⟨y, whole⟩ := History.cons first later
    exact ⟨y :: history, whole⟩

/-- **Learning accumulates exactly.**  Let a run for a test be asked for its attempts in any
sessions, with any collaborators and any allowance of attempts, and let it yield an attempt at last.
Then each of the calls before it yielded an attempt too.  The run's pools are the samples of the
discoveries made for these attempts, in order; the attempt is numbered by their count; what it says
was accumulated is the sum of what they say was discovered, and no pool was larger before.  For this
attempt the learner was asked once, about these pools. -/
theorem accumulates (c : Collaborators φ σ κ) (ctx : Context) (t : ObservedTest) (retries : Nat)
    (earlier : List (Session φ κ)) (s : Session φ κ) (a : Attempt)
    (ok : ((({ start ctx t with maxRetries := retries } : LearningRun).after c ctx earlier).next
      c ctx s).1 = some (.ok a)) :
    let run : LearningRun := { start ctx t with maxRetries := retries }
    ∃ history : List (Yielded φ κ), history.map (·.session) = earlier ++ [s] ∧
      run.yields c ctx (earlier ++ [s]) = history.map (fun y => some (.ok y.attempt)) ∧
      (∀ y ∈ history, (y.session.discover c ctx t).1 = .ok y.discovery ∧
        y.attempt.discovered = y.discovery.pools.sizes) ∧
      (run.after c ctx (earlier ++ [s])).pools = Yielded.pools history ∧
      a.number = earlier.length + 1 ∧
      a.accumulated = .sum (history.map (·.attempt.discovered)) ∧
      (∀ y ∈ history, a.accumulated.dominates y.attempt.accumulated = true) ∧
      ∀ requests, (run.after c ctx earlier).next c.recordingRequests ctx (s.withRequests requests) =
        (some (.ok a), run.after c ctx (earlier ++ [s]),
          ((run.after c ctx earlier).next c ctx s).2.2.withRequests
            (requests ++ [⟨ctx.grammar, Yielded.pools history, t.options.learner.getD {}⟩])) := by
  intro run
  obtain ⟨history, h⟩ := exists_history earlier ok
  have count : history.length = earlier.length + 1 := by
    simpa using congrArg List.length h.sessions
  have own : (run.after c ctx (earlier ++ [s])).test = t := test_after run _
  have held : (run.after c ctx (earlier ++ [s])).pools = Yielded.pools history := h.pools
  refine ⟨history, h.sessions, h.yielded, h.discovered, held, ?_, ?_, h.dominates,
    fun requests => ?_⟩
  · rw [h.number, count]
    exact Nat.zero_add _
  · have told : history.map (·.attempt.discovered) = history.map (·.discovery.pools.sizes) :=
      List.map_congr_left fun y mem => (h.discovered y mem).2
    rw [h.total, held, Yielded.sizes_pools, told]
  · rw [next_withRequests requests ok, ← after_concat, request, own, held]

/-- A run of two attempts, each of which finds both letters. -/
theorem accumulates_letters :
    ∃ a, ((({ start letterContext isLetterA with maxRetries := 2 } : LearningRun).after
        (letterSource checkingScript.learner) letterContext [letterSession]).next
        (letterSource checkingScript.learner) letterContext letterSession).1 = some (.ok a) ∧
      a.number = 2 ∧ a.accumulated = ⟨2, 2⟩ := by
  refine ⟨_, rfl, ?_⟩
  obtain ⟨-, -, -, -, -, number, -⟩ := accumulates (letterSource checkingScript.learner)
    letterContext isLetterA 2 [letterSession] letterSession _ rfl
  exact ⟨number, rfl⟩

end LearningRun

end PreconditionMining
