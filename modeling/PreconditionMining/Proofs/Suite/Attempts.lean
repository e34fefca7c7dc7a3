/-
# The course of a learning run

A learning run that is followed to its end makes one attempt after another, until
one has candidates or fails, or the attempts are used up.  `Course` tells this by
the attempts themselves, with the run and the session before and after each of
them, and `course_items` says that the items of a run come about like that.

From the course one reads what a run keeps: what each attempt keeps
(`Course.keeps`), and so the learning for one test and for several
(`learnTest_keeps`, `learnTests_keeps`).  One also reads how many attempts there
were.  They are numbered in order, and a run that nothing fails ends without
candidates with its last possible attempt only (`Course.exists_last`).
-/

import PreconditionMining.Proofs.Suite.Holding

namespace PreconditionMining

namespace LearningRun

variable {φ σ κ : Type}

/-- **What an attempt does to its run,** whatever comes of it: it is counted, and numbered by that
count. -/
theorem attempt_counts (c : Collaborators φ σ κ) (ctx : Context) (r : LearningRun)
    (s : Session φ κ) :
    (r.attempt c ctx s).2.1.test = r.test ∧
    (r.attempt c ctx s).2.1.maxRetries = r.maxRetries ∧
    (r.attempt c ctx s).2.1.made = r.made + 1 ∧
    ∀ a, (r.attempt c ctx s).1 = .ok a → a.number = r.made + 1 := by
  rw [attempt]
  rcases s.discover c ctx r.test with ⟨e | d, s'⟩
  · exact ⟨rfl, rfl, rfl, fun a ok => by cases ok⟩
  · simp only
    rcases candidates c ctx { r with made := r.made + 1, pools := r.pools ++ d.pools } s'
      with ⟨e | found, s''⟩
    · exact ⟨rfl, rfl, rfl, fun a ok => by cases ok⟩
    · refine ⟨rfl, rfl, rfl, fun a ok => ?_⟩
      obtain rfl := Except.ok.inj ok
      rfl

/-- **What an attempt does to the pools of its run:** it adds those of its discovery, if there are
any. -/
theorem attempt_pools (c : Collaborators φ σ κ) (ctx : Context) (r : LearningRun)
    (s : Session φ κ) :
    (r.attempt c ctx s).2.1.pools = r.pools ∨
      ∃ d, (s.discover c ctx r.test).1 = .ok d ∧
        (r.attempt c ctx s).2.1.pools = r.pools ++ d.pools := by
  rw [attempt]
  rcases s.discover c ctx r.test with ⟨e | d, s'⟩
  · exact .inl rfl
  · simp only
    rcases candidates c ctx { r with made := r.made + 1, pools := r.pools ++ d.pools } s'
      with ⟨e | found, s''⟩ <;> exact .inr ⟨d, rfl, rfl⟩

/-- A run that makes no further attempt. -/
def Ended (r : LearningRun) : Prop := r.finished = true ∨ r.maxRetries ≤ r.made

theorem next_of_ended {c : Collaborators φ σ κ} {ctx : Context} {r : LearningRun} (h : r.Ended)
    (s : Session φ κ) : r.next c ctx s = (none, r, s) := by
  have refused : (r.finished || decide (r.maxRetries ≤ r.made)) = true := by
    rwa [Bool.or_eq_true, decide_eq_true_iff]
  rw [next, if_pos refused]

theorem next_of_not_ended {c : Collaborators φ σ κ} {ctx : Context} {r : LearningRun}
    (h : ¬ r.Ended) (s : Session φ κ) :
    r.next c ctx s =
      let (item, r', s') := r.attempt c ctx s
      (some item, { r' with finished := ends item }, s') := by
  have going : ¬ (r.finished || decide (r.maxRetries ≤ r.made)) = true := by
    rwa [Bool.or_eq_true, decide_eq_true_iff]
  rw [next, if_neg going]

/-- **A run with an attempt left** yields what it comes to. -/
theorem next_of_made {c : Collaborators φ σ κ} {ctx : Context} {r r' : LearningRun}
    {s s' : Session φ κ} {item : Except ConditionError Attempt} (unfinished : r.finished = false)
    (left : r.made < r.maxRetries) (made : r.attempt c ctx s = (item, r', s')) :
    r.next c ctx s = (some item, { r' with finished := ends item }, s') := by
  have going : ¬ r.Ended := by
    rintro (finished | used)
    · rw [unfinished] at finished
      cases finished
    · omega
  rw [next_of_not_ended going, made]

/-- **How a run goes to its end,** from a run and a session to others. -/
inductive Course (c : Collaborators φ σ κ) (ctx : Context) :
    LearningRun → Session φ κ → List (Except ConditionError Attempt) → LearningRun →
      Session φ κ → Prop
  | spent {r : LearningRun} {s : Session φ κ} (used : r.maxRetries ≤ r.made) :
      Course c ctx r s [] r s
  | ended {r r' : LearningRun} {s s' : Session φ κ} {item : Except ConditionError Attempt}
      (left : r.made < r.maxRetries) (made : r.attempt c ctx s = (item, r', s'))
      (final : ends item = true) : Course c ctx r s [item] { r' with finished := true } s'
  | goesOn {r r' r'' : LearningRun} {s s' s'' : Session φ κ} {item : Except ConditionError Attempt}
      {items : List (Except ConditionError Attempt)}
      (left : r.made < r.maxRetries) (made : r.attempt c ctx s = (item, r', s'))
      (unfinished : ends item = false)
      (rest : Course c ctx { r' with finished := false } s' items r'' s'') :
      Course c ctx r s (item :: items) r'' s''

theorem takeItems_of_finished (c : Collaborators φ σ κ) (ctx : Context) (n : Nat) {r : LearningRun}
    (s : Session φ κ) (finished : r.finished = true) : takeItems c ctx n r s = ([], r, s) := by
  cases n with
  | zero => rfl
  | succ n => rw [takeItems, next_of_ended (.inl finished)]

/-- **The items of a run come about as described.** -/
theorem course_items (c : Collaborators φ σ κ) (ctx : Context) {r : LearningRun} (s : Session φ κ)
    (unfinished : r.finished = false) :
    Course c ctx r s (r.items c ctx s).1 (r.items c ctx s).2.1 (r.items c ctx s).2.2 := by
  rw [items]
  generalize budget : r.maxRetries - r.made = n
  induction n generalizing r s with
  | zero => exact .spent (by omega)
  | succ n ih =>
    have left : r.made < r.maxRetries := by omega
    obtain ⟨-, same, count, -⟩ := attempt_counts c ctx r s
    rcases made : r.attempt c ctx s with ⟨item, r', s'⟩
    rw [made] at same count
    rw [takeItems, next_of_made unfinished left made]
    cases final : ends item with
    | true =>
      simp only [takeItems_of_finished c ctx n s' (r := { r' with finished := true }) rfl]
      exact .ended left made final
    | false =>
      have budget' : r'.maxRetries - r'.made = n := by simp only at same count; omega
      exact .goesOn left made final (ih s' rfl budget')

/-- Each attempt keeps a property of the runs and one of the sessions, in which it does not matter
what has been told or whether the run has ended. -/
structure Keeps (c : Collaborators φ σ κ) (ctx : Context) (run : LearningRun → Prop)
    (session : Session φ κ → Prop) : Prop where
  note : ∀ s e, session s → session (s.note e)
  finish : ∀ r ended, run r → run { r with finished := ended }
  attempt : ∀ r s, run r → session s →
    run (r.attempt c ctx s).2.1 ∧ session (r.attempt c ctx s).2.2

/-- Attempts keep the test of a run, and leave held what is held in a world. -/
theorem keeps_inFlight (c : Collaborators φ σ κ) (ctx : Context) (t : ObservedTest) (w : World) :
    Keeps c ctx (fun r => r.test = t) fun s => ∀ q, s.world.inFlight q = w.inFlight q where
  note _ _ same := same
  finish _ _ own := own
  attempt r s own same :=
    ⟨(attempt_counts c ctx r s).1.trans own, fun q => (inFlight_attempt c ctx r s q).trans (same q)⟩

namespace Course

variable {c : Collaborators φ σ κ} {ctx : Context} {r r' : LearningRun} {s s' : Session φ κ}
  {items : List (Except ConditionError Attempt)}

/-- **A run keeps what each attempt keeps,** and each of its attempts is made where that holds. -/
theorem keeps {run : LearningRun → Prop} {session : Session φ κ → Prop}
    (h : Course c ctx r s items r' s') (kept : Keeps c ctx run session) (hr : run r)
    (hs : session s) :
    session s' ∧ ∀ item ∈ items, ∃ v z, run v ∧ session z ∧ (v.attempt c ctx z).1 = item := by
  induction h with
  | spent used => exact ⟨hs, fun item mem => absurd mem List.not_mem_nil⟩
  | @ended r r' s s' item left made final =>
    have after := kept.attempt r s hr hs
    rw [made] at after
    refine ⟨after.2, fun item' mem => ?_⟩
    obtain rfl := List.mem_singleton.1 mem
    exact ⟨r, s, hr, hs, by rw [made]⟩
  | @goesOn r r' r'' s s' s'' item items left made unfinished rest ih =>
    have after := kept.attempt r s hr hs
    rw [made] at after
    obtain ⟨last, each⟩ := ih (kept.finish r' false after.1) after.2
    refine ⟨last, fun item' mem => ?_⟩
    rcases List.mem_cons.1 mem with rfl | mem
    · exact ⟨r, s, hr, hs, by rw [made]⟩
    · exact each item' mem

/-- **A run that nothing fails ends with a numbered attempt:** one of those that were left to the
run, and the last of these if it has no candidates. -/
theorem exists_last (h : Course c ctx r s items r' s') (smooth : ∀ e, .error e ∉ items)
    (before : Nat × List Candidate) :
    ∃ number found, Session.lastAttempt items before = .ok (number, found) ∧
      (items = [] → (number, found) = before) ∧
      (items ≠ [] → r.made < number ∧ number ≤ r.maxRetries ∧
        (found = [] → number = r.maxRetries)) := by
  induction h generalizing before with
  | spent used =>
    exact ⟨before.1, before.2, rfl, fun _ => rfl, fun nonempty => absurd rfl nonempty⟩
  | @ended r r' s s' item left made final =>
    obtain ⟨-, -, -, numbered⟩ := attempt_counts c ctx r s
    rw [made] at numbered
    cases item with
    | error e => exact absurd List.mem_cons_self (smooth e)
    | ok a =>
      have number := numbered a rfl
      refine ⟨a.number, a.candidates, rfl, fun nothing => absurd nothing (List.cons_ne_nil _ _),
        fun _ => ?_⟩
      refine ⟨by omega, by omega, fun empty => ?_⟩
      rw [ends, empty] at final
      cases final
  | @goesOn r r' r'' s s' s'' item items left made unfinished rest ih =>
    obtain ⟨-, same, count, numbered⟩ := attempt_counts c ctx r s
    rw [made] at same count numbered
    cases item with
    | error e => exact absurd List.mem_cons_self (smooth e)
    | ok a =>
      have number := numbered a rfl
      obtain ⟨k, found, last, unmade, bounds⟩ :=
        ih (fun e mem => smooth e (List.mem_cons_of_mem _ mem)) (a.number, a.candidates)
      refine ⟨k, found, last, fun nothing => absurd nothing (List.cons_ne_nil _ _), fun _ => ?_⟩
      simp only at same count bounds
      cases items with
      | nil =>
        obtain ⟨rfl, rfl⟩ := Prod.mk.inj (unmade rfl)
        -- no attempt follows this one, so that it was the last possible one
        have used : r'.maxRetries ≤ r'.made := by
          cases rest with
          | spent used => exact used
        omega
      | cons item items =>
        obtain ⟨later, within, last⟩ := bounds (List.cons_ne_nil _ _)
        exact ⟨by omega, by omega, fun empty => by rw [last empty, same]⟩

end Course

end LearningRun

namespace Session

open LearningRun

variable {φ σ κ : Type} {c : Collaborators φ σ κ} {ctx : Context}
  {run : LearningRun → Prop} {session : Session φ κ → Prop}

theorem tellLearned_keeps (note : ∀ s e, session s → session (s.note e)) {s : Session φ κ}
    (hs : session s) (attempts : Nat) (learned : List Candidate) :
    session (tellLearned ctx attempts learned s) := by
  have told : session (if 1 < attempts then s.note (.severalAttempts attempts) else s) := by
    split
    · exact note _ _ hs
    · exact hs
  rw [tellLearned]
  split
  · exact note _ _ told
  · exact noteAll_keeps note told _

/-- What the learning for a test comes to, from the course of its run. -/
theorem learnTest_eq (c : Collaborators φ σ κ) (ctx : Context) (t : ObservedTest)
    (s : Session φ κ) :
    ∃ items r s', LearningRun.Course c ctx (LearningRun.start ctx t)
        ((s.note (.enteringTest t.name t.condition.description)).note .learning) items r s' ∧
      s.learnTest c ctx t =
        match lastAttempt items (0, []) with
        | .error e => (.error e, s')
        | .ok (attempts, learned) =>
          (.ok ⟨t, learned.map (·.formula), attempts⟩, tellLearned ctx attempts learned s') :=
  ⟨_, _, _, course_items c ctx _ rfl, rfl⟩

/-- A result of the learning for a test is one for that test. -/
theorem test_of_learnTest {t : ObservedTest} {s : Session φ κ} {result : TestResult}
    (done : (s.learnTest c ctx t).1 = .ok result) : result.test = t := by
  obtain ⟨items, r, s', -, same⟩ := learnTest_eq c ctx t s
  rw [same] at done
  cases last : lastAttempt items (0, []) with
  | error e =>
    rw [last] at done
    cases done
  | ok found =>
    rw [last] at done
    cases done
    rfl

/-- **The learning for a test keeps what each attempt keeps.** -/
theorem learnTest_keeps (kept : Keeps c ctx run session) {t : ObservedTest}
    (fresh : run (LearningRun.start ctx t)) {s : Session φ κ} (hs : session s) :
    session (s.learnTest c ctx t).2 := by
  obtain ⟨items, r, s', course, same⟩ := learnTest_eq c ctx t s
  have after := (course.keeps kept fresh (kept.note _ _ (kept.note _ _ hs))).1
  rw [same]
  rcases lastAttempt items (0, []) with e | ⟨attempts, learned⟩
  · exact after
  · exact tellLearned_keeps kept.note after attempts learned

/-- **The learning for several tests keeps what each attempt keeps.** -/
theorem learnTests_keeps (session : Session φ κ → Prop) {ts : List ObservedTest}
    (kept : ∀ t ∈ ts, ∃ run, Keeps c ctx run session ∧ run (LearningRun.start ctx t))
    {s : Session φ κ} (hs : session s) : session (learnTests c ctx ts s).2.2 := by
  induction ts generalizing s with
  | nil => exact hs
  | cons t ts ih =>
    obtain ⟨run, keeps, fresh⟩ := kept t List.mem_cons_self
    have after := learnTest_keeps keeps fresh hs
    rw [learnTests]
    rcases learned : s.learnTest c ctx t with ⟨e | result, s'⟩ <;> rw [learned] at after
    · exact after
    · exact ih (fun t' mem => kept t' (List.mem_cons_of_mem _ mem)) after

end Session

end PreconditionMining
