/-
# A learning run as an iterator

A run is called for its next attempt again and again, in whatever sessions
(`LearningRun.yields`).  Until it has ended each call makes an attempt, and what comes of
that is settled by the discovery and by the learner's answer (`LearningRun.answer`,
`LearningRun.ofAnswer`): a learner that fails has answered without candidates, and a
misuse that its oracle met is one of the attempt (`map_candidates_attempt`).

So a run yields its items first and nothing after them.  `LearningRun.Account` says what
is true of these at any time.  They are within the allowance and numbered in order, all
but the last of them are without candidates, and the run has ended when and only when the
last of them ends it or the allowance is used up.  One call more keeps the account
(`next_of_going`, `Account.cons`), and so there is one for all calls (`exists_account`).

The learning for a test calls its run until it has ended, each time in the session that the
attempt before left behind (`Course.exists_calls`), and keeps the last item
(`Session.lastAttempt_eq`).  `LearningRun.yields_until_useful` puts both together.
-/

import PreconditionMining.Proofs.Suite.Accumulation

namespace PreconditionMining

namespace LearningRun

variable {φ σ κ : Type}

/-- What an answer of the learner makes of an attempt: a failure is an answer without candidates,
and a misuse that the oracle met is one of the attempt. -/
def ofAnswer : Except LearnerError (List Candidate) → Except ConditionError (List Candidate)
  | .ok found => .ok found
  | .error (.failed _) => .ok []
  | .error (.oracle e) => .error e

/-- What the learner answers in the next attempt of a run, or the misuse in the discovery that
keeps it from being asked. -/
def answer (c : Collaborators φ σ κ) (ctx : Context) (r : LearningRun) (s : Session φ κ) :
    Except ConditionError (Except LearnerError (List Candidate)) :=
  match s.discover c ctx r.test with
  | (.error e, _) => .error e
  | (.ok d, s) => .ok (s.learn c ctx r.test (r.pools ++ d.pools)).1

/-- **An attempt comes to what the learner's answer makes of it.** -/
theorem map_candidates_attempt (c : Collaborators φ σ κ) (ctx : Context) (r : LearningRun)
    (s : Session φ κ) :
    (r.attempt c ctx s).1.map (·.candidates) = (r.answer c ctx s).bind ofAnswer := by
  rw [attempt, answer]
  rcases s.discover c ctx r.test with ⟨e | d, s₁⟩
  · rfl
  · simp only
    rw [candidates]
    rcases s₁.learn c ctx r.test (r.pools ++ d.pools) with ⟨(e | reason) | found, s₂⟩ <;> rfl

/-- An item that does not end its run is an attempt without candidates. -/
theorem ends_eq_false_iff {item : Except ConditionError Attempt} :
    ends item = false ↔ ∃ a, item = .ok a ∧ a.candidates = [] := by
  cases item <;> simp [ends]

/-- **One call of a run that has not ended** yields an item: an attempt numbered by the count of
those made, and what the learner's answer makes of it. -/
theorem next_of_going (c : Collaborators φ σ κ) (ctx : Context) {r : LearningRun}
    (going : ¬ r.Ended) (s : Session φ κ) :
    ∃ item, (r.next c ctx s).1 = some item ∧
      (r.next c ctx s).2.1.made = r.made + 1 ∧
      (r.next c ctx s).2.1.maxRetries = r.maxRetries ∧
      (r.next c ctx s).2.1.finished = ends item ∧
      (∀ a, item = .ok a → a.number = r.made + 1) ∧
      item.map (·.candidates) = (r.answer c ctx s).bind ofAnswer := by
  obtain ⟨-, same, count, numbered⟩ := attempt_counts c ctx r s
  rw [next_of_not_ended going]
  exact ⟨(r.attempt c ctx s).1, rfl, count, same, rfl, numbered, map_candidates_attempt c ctx r s⟩

variable {c : Collaborators φ σ κ} {ctx : Context} {r : LearningRun}

/-- **The account of a run** that was called in some sessions, one after another: it yielded its
items first, and nothing after them. -/
structure Account (c : Collaborators φ σ κ) (ctx : Context) (r : LearningRun)
    (calls : List (Session φ κ)) (items : List (Except ConditionError Attempt)) : Prop where
  yielded : r.yields c ctx calls =
    items.map some ++ List.replicate (calls.length - items.length) none
  made : (r.after c ctx calls).made = r.made + items.length
  bounded : items.length ≤ r.maxRetries - r.made
  numbered : ∀ i a, items[i]? = some (.ok a) → a.number = r.made + i + 1
  /-- Only the last item may end the run. -/
  earlier : ∀ item ∈ items.dropLast, ends item = false
  ended_iff : (r.after c ctx calls).Ended ↔
    r.Ended ∨ r.maxRetries ≤ r.made + items.length ∨ items.getLast?.any ends = true
  /-- A call that yields nothing finds the run ended. -/
  withheld : items.length < calls.length → (r.after c ctx calls).Ended
  answered : ∀ i s item, calls[i]? = some s → items[i]? = some item →
    item.map (·.candidates) = ((r.after c ctx (calls.take i)).answer c ctx s).bind ofAnswer

theorem yields_of_ended (h : r.Ended) :
    ∀ calls : List (Session φ κ), r.yields c ctx calls = List.replicate calls.length none
  | [] => rfl
  | s :: calls => by
    rw [yields, next_of_ended h s]
    exact congrArg (none :: ·) (yields_of_ended h calls)

/-- A run that has ended yields nothing. -/
theorem Account.of_ended (h : r.Ended) (calls : List (Session φ κ)) :
    r.Account c ctx calls [] where
  yielded := yields_of_ended h calls
  made := by rw [after_of_ended h]; rfl
  bounded := Nat.zero_le _
  numbered _ _ found := by cases found
  earlier _ mem := absurd mem List.not_mem_nil
  ended_iff := by
    rw [after_of_ended h]
    exact ⟨.inl, fun _ => h⟩
  withheld _ := by rwa [after_of_ended h]
  answered _ _ _ _ found := by cases found

/-- A run that was not called has yielded nothing. -/
theorem Account.nil : r.Account c ctx ([] : List (Session φ κ)) [] where
  yielded := rfl
  made := rfl
  bounded := Nat.zero_le _
  numbered _ _ found := by cases found
  earlier _ mem := absurd mem List.not_mem_nil
  ended_iff := by
    constructor
    · exact .inl
    · rintro (ended | used | last)
      · exact ended
      · exact .inr used
      · cases last
  withheld fewer := absurd fewer (Nat.lt_irrefl 0)
  answered _ _ _ called := by cases called

section Alone

variable {item : Except ConditionError Attempt} {items : List (Except ConditionError Attempt)}
  (alone : ends item = true → items = [])

include alone

/-- Where an item that ends its run stands alone, the last of some items ends the run if the first
or the last of the others does. -/
theorem any_ends_getLast?_cons :
    (item :: items).getLast?.any ends = (ends item || items.getLast?.any ends) := by
  cases items with
  | nil => simp
  | cons next items =>
    have goes : ends item = false :=
      Bool.eq_false_iff.2 fun final => absurd (alone final) (List.cons_ne_nil _ _)
    rw [List.getLast?_cons_cons, goes, Bool.false_or]

theorem forall_earlier_cons (earlier : ∀ other ∈ items.dropLast, ends other = false) :
    ∀ other ∈ (item :: items).dropLast, ends other = false := by
  cases items with
  | nil => exact fun other mem => absurd mem List.not_mem_nil
  | cons next items =>
    have goes : ends item = false :=
      Bool.eq_false_iff.2 fun final => absurd (alone final) (List.cons_ne_nil _ _)
    exact List.forall_mem_cons.2 ⟨goes, earlier⟩

end Alone

/-- **One call more in front** is one item more in the account. -/
theorem Account.cons {s : Session φ κ} {calls : List (Session φ κ)}
    {item : Except ConditionError Attempt} {items : List (Except ConditionError Attempt)}
    (going : ¬ r.Ended) (first : (r.next c ctx s).1 = some item)
    (alone : ends item = true → items = [])
    (h : (r.next c ctx s).2.1.Account c ctx calls items) :
    r.Account c ctx (s :: calls) (item :: items) := by
  obtain ⟨item', first', count, same, finished, numbered, answered⟩ :=
    next_of_going c ctx going s
  obtain rfl : item = item' := Option.some.inj (first.symm.trans first')
  have left : r.made < r.maxRetries := Nat.lt_of_not_le fun used => going (.inr used)
  refine ⟨?_, ?_, ?_, ?_, forall_earlier_cons alone h.earlier, ?_, ?_, ?_⟩
  · rw [yields, first, h.yielded, List.length_cons, List.length_cons, Nat.add_sub_add_right]
    rfl
  · rw [after, h.made, count, List.length_cons]
    omega
  · have bounded := h.bounded
    rw [same, count] at bounded
    rw [List.length_cons]
    omega
  · intro i a found
    cases i with
    | zero =>
      have here : item = .ok a := Option.some.inj found
      exact numbered a here
    | succ i =>
      have later := h.numbered i a found
      omega
  · rw [after, h.ended_iff, any_ends_getLast?_cons alone, Bool.or_eq_true, Ended, finished, same,
      count, List.length_cons]
    constructor
    · rintro ((final | used) | used | last)
      · exact .inr (.inr (.inl final))
      · exact .inr (.inl (by omega))
      · exact .inr (.inl (by omega))
      · exact .inr (.inr (.inr last))
    · rintro (ended | used | final | last)
      · exact absurd ended going
      · exact .inr (.inl (by omega))
      · exact .inl (.inl final)
      · exact .inr (.inr last)
  · intro fewer
    exact h.withheld (Nat.lt_of_succ_lt_succ fewer)
  · intro i z item' called found
    cases i with
    | zero =>
      obtain rfl := Option.some.inj called
      obtain rfl := Option.some.inj found
      exact answered
    | succ i => exact h.answered i z item' called found

/-- **Whatever the calls of a run, there is an account of it.** -/
theorem exists_account (c : Collaborators φ σ κ) (ctx : Context) (r : LearningRun)
    (calls : List (Session φ κ)) : ∃ items, r.Account c ctx calls items := by
  induction calls generalizing r with
  | nil => exact ⟨[], .nil⟩
  | cons s calls ih =>
    by_cases ended : r.Ended
    · exact ⟨[], .of_ended ended _⟩
    · obtain ⟨item, first, -, -, finished, -⟩ := next_of_going c ctx ended s
      by_cases final : ends item = true
      · have later : (r.next c ctx s).2.1.Account c ctx calls [] :=
          .of_ended (.inl (finished.trans final)) calls
        exact ⟨[item], later.cons ended first fun _ => rfl⟩
      · obtain ⟨items, later⟩ := ih (r.next c ctx s).2.1
        exact ⟨item :: items, later.cons ended first fun ends => absurd ends final⟩

/-- The items of an account are what the run yielded. -/
theorem Account.unique {calls : List (Session φ κ)}
    {items items' : List (Except ConditionError Attempt)} (h : r.Account c ctx calls items)
    (yielded : r.yields c ctx calls = items'.map some) : items = items' := by
  have same := congrArg (List.filterMap id) (h.yielded.symm.trans yielded)
  simpa [List.filterMap_append, List.filterMap_map] using same

/-- **A run that is followed to its end** is called until it has ended, in one session after
another. -/
theorem Course.exists_calls {r' : LearningRun} {s s' : Session φ κ}
    {items : List (Except ConditionError Attempt)} (h : Course c ctx r s items r' s')
    (unfinished : r.finished = false) :
    ∃ calls, r.yields c ctx calls = items.map some ∧ r.after c ctx calls = r' ∧ r'.Ended := by
  induction h with
  | spent used => exact ⟨[], rfl, rfl, .inr used⟩
  | @ended r r' s s' item left made final =>
    have called := next_of_made unfinished left made
    refine ⟨[s], ?_, ?_, .inl rfl⟩
    · rw [yields, called]
      rfl
    · rw [after, called, after, final]
  | @goesOn r r' r'' s s' s'' item items left made goes rest ih =>
    have called := next_of_made unfinished left made
    obtain ⟨calls, yielded, after', ended⟩ := ih rfl
    refine ⟨s :: calls, ?_, ?_, ended⟩
    · rw [yields, called, goes, yielded]
      rfl
    · rw [after, called, goes, after']

end LearningRun

/-- **The last of some items counts** where only the last of them may end the run. -/
theorem Session.lastAttempt_eq {items : List (Except ConditionError Attempt)}
    (earlier : ∀ item ∈ items.dropLast, LearningRun.ends item = false)
    (before : Nat × List Candidate) :
    lastAttempt items before =
      match items.getLast? with
      | none => .ok before
      | some (.error e) => .error e
      | some (.ok a) => .ok (a.number, a.candidates) := by
  induction items generalizing before with
  | nil => rfl
  | cons item items ih =>
    cases items with
    | nil => cases item <;> rfl
    | cons next items =>
      obtain ⟨goes, rest⟩ := List.forall_mem_cons.1 earlier
      obtain ⟨a, rfl, -⟩ := LearningRun.ends_eq_false_iff.1 goes
      rw [lastAttempt, ih rest, List.getLast?_cons_cons,
        List.getLast?_eq_some_getLast (List.cons_ne_nil next items)]
      cases (next :: items).getLast (List.cons_ne_nil next items) <;> rfl

namespace LearningRun

/-- Items that a run with some allowance may have yielded: no more than allowed, numbered from 1,
and only the last of them a misuse or an attempt with candidates. -/
structure Orderly (retries : Nat) (items : List (Except ConditionError Attempt)) : Prop where
  bounded : items.length ≤ retries
  numbered : ∀ i a, items[i]? = some (.ok a) → a.number = i + 1
  earlier : ∀ item ∈ items.dropLast, ∃ a, item = .ok a ∧ a.candidates = []

/-- Items that no others follow: the allowance is used up, or the last item is a misuse or an
attempt with candidates. -/
def Complete (retries : Nat) (items : List (Except ConditionError Attempt)) : Prop :=
  items.length = retries ∨ (∃ e, items.getLast? = some (.error e)) ∨
    ∃ a, items.getLast? = some (.ok a) ∧ a.candidates ≠ []

/-- What is learned for a test from the items of its run: the formulas of the last attempt, in the
order of the learner, and how many attempts there were. -/
def resultOf (t : ObservedTest) (items : List (Except ConditionError Attempt)) :
    Except ConditionError TestResult :=
  match items.getLast? with
  | none => .ok ⟨t, [], 0⟩
  | some (.error e) => .error e
  | some (.ok a) => .ok ⟨t, a.candidates.map (·.formula), items.length⟩

theorem any_ends_getLast?_iff {items : List (Except ConditionError Attempt)} :
    items.getLast?.any ends = true ↔
      (∃ e, items.getLast? = some (.error e)) ∨
        ∃ a, items.getLast? = some (.ok a) ∧ a.candidates ≠ [] := by
  rcases items.getLast? with _ | e | a <;> simp [ends]

variable {c : Collaborators φ σ κ} {ctx : Context} {t : ObservedTest}
  {calls : List (Session φ κ)} {items : List (Except ConditionError Attempt)}

section Fresh

variable {r : LearningRun} (fresh : r.made = 0) (h : r.Account c ctx calls items)

include fresh h

theorem Account.orderly : Orderly r.maxRetries items where
  bounded := by
    have bounded := h.bounded
    omega
  numbered i a found := by
    have number := h.numbered i a found
    omega
  earlier item mem := ends_eq_false_iff.1 (h.earlier item mem)

/-- **A run from the start has ended when and only when its items are complete.** -/
theorem Account.ended_iff_complete (unfinished : r.finished = false) :
    (r.after c ctx calls).Ended ↔ Complete r.maxRetries items := by
  have bounded := (h.orderly fresh).bounded
  rw [h.ended_iff, any_ends_getLast?_iff, Complete, fresh, Ended, unfinished, fresh]
  constructor
  · rintro ((finished | none) | used | last)
    · cases finished
    · exact .inl (by omega)
    · exact .inl (by omega)
    · exact .inr last
  · rintro (used | last)
    · exact .inr (.inl (by omega))
    · exact .inr (.inr last)

end Fresh

/-- The last attempt of orderly items is numbered by their count. -/
theorem Orderly.number_last {retries : Nat} {a : Attempt} (h : Orderly retries items)
    (last : items.getLast? = some (.ok a)) : a.number = items.length := by
  rw [List.getLast?_eq_getElem?] at last
  have number := h.numbered _ a last
  have inside : items.length - 1 < items.length := (List.getElem?_eq_some_iff.1 last).1
  omega

/-- **The learning for a test keeps the last item of its run.** -/
theorem fst_learnTest (c : Collaborators φ σ κ) (ctx : Context) (t : ObservedTest)
    (s : Session φ κ) :
    let items := ((start ctx t).items c ctx
      ((s.note (.enteringTest t.name t.condition.description)).note .learning)).1
    (∃ calls, (start ctx t).yields c ctx calls = items.map some ∧
      (start ctx t).Account c ctx calls items ∧ ((start ctx t).after c ctx calls).Ended) ∧
      (s.learnTest c ctx t).1 = resultOf t items := by
  intro items
  obtain ⟨calls, yielded, after', ended⟩ := (course_items c ctx (r := start ctx t)
    ((s.note (.enteringTest t.name t.condition.description)).note .learning) rfl).exists_calls rfl
  obtain ⟨items', account⟩ := exists_account c ctx (start ctx t) calls
  obtain rfl : items' = items := account.unique yielded
  refine ⟨⟨calls, yielded, account, after' ▸ ended⟩, ?_⟩
  have orderly : Orderly _ items := account.orderly rfl
  have kept := Session.lastAttempt_eq account.earlier (0, [])
  rw [Session.learnTest, resultOf]
  simp only
  rw [show Session.lastAttempt _ (0, []) = _ from kept]
  cases last : items.getLast? with
  | none => rfl
  | some item =>
    cases item with
    | error e => rfl
    | ok a => rw [← orderly.number_last last]

/-- **Nothing is learned only when all attempts were made.** -/
theorem Complete.attempts_eq {retries : Nat} {result : TestResult} (h : Complete retries items)
    (learned : resultOf t items = .ok result) (nothing : result.preconditions = []) :
    result.attempts = retries := by
  rw [resultOf] at learned
  rw [Complete] at h
  cases last : items.getLast? with
  | none =>
    obtain rfl := List.getLast?_eq_none_iff.1 last
    rw [last] at learned
    obtain rfl := Except.ok.inj learned
    simpa [last] using h
  | some item =>
    rw [last] at learned h
    cases item with
    | error e => cases learned
    | ok a =>
      obtain rfl := Except.ok.inj learned
      have none : a.candidates = [] := List.map_eq_nil_iff.1 nothing
      simpa [none] using h

/-- **A learning run stops for good at its first useful attempt.**  Let a run for a test, with any
allowance of attempts, be called in any sessions, one after another.  It yields its items first and
nothing after them.  There are no more of them than allowed, and the attempts are counted by them,
so that no count exceeds the allowance; the attempts are numbered from 1 in order; all items but the
last are attempts without candidates; and each item is what the learner's answer makes of it, where
a failure counts as no candidates and a misuse that the oracle met as a misuse of the attempt.  A
call yields nothing only when the allowance is used up or the last item is a misuse or an attempt
with candidates, and from then on each call leaves the run and the session as they are.

The learning for a test follows its run to such an end.  It fails with a misuse that is the last
item; otherwise it gives the formulas of the last attempt, in the order of the learner, and how many
attempts there were, which are all that were allowed where nothing was learned. -/
theorem yields_until_useful (c : Collaborators φ σ κ) (ctx : Context) (t : ObservedTest)
    (retries : Nat) :
    (∀ calls : List (Session φ κ),
      let run : LearningRun := { start ctx t with maxRetries := retries }
      ∃ items,
        run.yields c ctx calls =
          items.map some ++ List.replicate (calls.length - items.length) none ∧
        Orderly retries items ∧ (run.after c ctx calls).made = items.length ∧
        (∀ i s item, calls[i]? = some s → items[i]? = some item →
          item.map (·.candidates) =
            ((run.after c ctx (calls.take i)).answer c ctx s).bind ofAnswer) ∧
        (items.length < calls.length → Complete retries items) ∧
        (Complete retries items →
          ∀ s, (run.after c ctx calls).next c ctx s = (none, run.after c ctx calls, s))) ∧
    ∀ s : Session φ κ,
      let items := ((start ctx t).items c ctx
        ((s.note (.enteringTest t.name t.condition.description)).note .learning)).1
      (∃ calls, (start ctx t).yields c ctx calls = items.map some) ∧
      Orderly ctx.settings.maxLearnerRetries items ∧
      Complete ctx.settings.maxLearnerRetries items ∧
      (s.learnTest c ctx t).1 = resultOf t items ∧
      ∀ result, (s.learnTest c ctx t).1 = .ok result → result.preconditions = [] →
        result.attempts = ctx.settings.maxLearnerRetries := by
  refine ⟨fun calls => ?_, fun s => ?_⟩
  · intro run
    obtain ⟨items, account⟩ := exists_account c ctx run calls
    have ended_iff := account.ended_iff_complete rfl rfl
    refine ⟨items, account.yielded, account.orderly rfl, ?_, account.answered, ?_, ?_⟩
    · rw [account.made]
      exact Nat.zero_add _
    · exact fun fewer => ended_iff.1 (account.withheld fewer)
    · exact fun complete => next_of_ended (ended_iff.2 complete)
  · intro items
    obtain ⟨⟨calls, yielded, account, ended⟩, learned⟩ := fst_learnTest c ctx t s
    have complete := (account.ended_iff_complete rfl rfl).1 ended
    refine ⟨⟨calls, yielded⟩, account.orderly rfl, complete, learned, fun result ok nothing => ?_⟩
    exact complete.attempts_eq (learned.symm.trans ok) nothing

end LearningRun

end PreconditionMining
