/-
# What a solving call draws

A solving call derives one tree after another from the start symbol (`derivations`) until
one is accepted, and nothing after that: a tree is accepted when it satisfies the formula
and, where samples are to be distinct, reads like none that is remembered (`Accepts`).

A tree that is passed over changes the draws, and the count of repeated ones if it
satisfied the formula; neither has a part in what is accepted later.  So the call goes by
the derivations that it may make.  If one of them is accepted, the first such is the answer
(`solveWithin_of_first`).  If none is, the call makes all of them, and those that satisfied
the formula are the repeated ones (`solveWithin_of_none`).

How such a call ends is for a signed word to say that has counted them (`repeated`).  The
word is positive only if there are some, and it is positive then as long as the call makes
too few derivations for it to wrap around (`repeated_pos_iff`).
-/

import PreconditionMining.Proofs.Fuzzer.Run

namespace PreconditionMining

namespace Fuzzer

variable {ρ : Type}

/-- A number of trees that a fuzzer derives from the start symbol, one after another. -/
def derivations (chooser : Chooser ρ) : Nat → Fuzzer ρ → List Tree
  | 0, _ => []
  | n + 1, f =>
    let (tree, f) := f.derive chooser startSymbol 0
    tree :: derivations chooser n f

/-- A fuzzer after a number of derivations from the start symbol. -/
def afterDerivations (chooser : Chooser ρ) : Nat → Fuzzer ρ → Fuzzer ρ
  | 0, f => f
  | n + 1, f => afterDerivations chooser n (f.derive chooser startSymbol 0).2

/-- **A tree is accepted** when it satisfies the formula and, where samples are to be distinct,
reads like none that is remembered. -/
def Accepts (f : Fuzzer ρ) (t : Tree) : Prop :=
  f.formula.holds t = true ∧ (f.options.distinct = true → t.render ∉ f.seen)

instance (f : Fuzzer ρ) (t : Tree) : Decidable (f.Accepts t) := inferInstanceAs (Decidable (_ ∧ _))

/-- The first tree of a list that is accepted, and those before it. -/
structure FirstAccepted (f : Fuzzer ρ) (drawn earlier : List Tree) (t : Tree) : Prop where
  drawn : ∃ later, drawn = earlier ++ t :: later
  passed : ∀ s ∈ earlier, ¬ f.Accepts s
  taken : f.Accepts t

/-- A fuzzer that has returned a sample: it remembers it where samples are to be distinct. -/
def remember (f : Fuzzer ρ) (t : Tree) : Fuzzer ρ :=
  if f.options.distinct then { f with seen := t.render :: f.seen } else f

/-- The derivations of a solving call that satisfy the formula, counted in a signed word: the
repeated ones, if the call accepts none. -/
def repeated (chooser : Chooser ρ) (f : Fuzzer ρ) : Int32 :=
  .ofNat ((f.derivations chooser f.options.maxAttempts).countP f.formula.holds)

variable {chooser : Chooser ρ} {f : Fuzzer ρ}

theorem length_derivations (chooser : Chooser ρ) (n : Nat) (f : Fuzzer ρ) :
    (f.derivations chooser n).length = n := by
  induction n generalizing f with
  | zero => rfl
  | succ n ih => rw [derivations, List.length_cons, ih]

/-- What is counted as repeated is there. -/
theorem exists_holds_of_repeated (counted : 0 < f.repeated chooser) :
    ∃ s ∈ f.derivations chooser f.options.maxAttempts, f.formula.holds s = true := by
  rw [← List.countP_pos_iff]
  refine Nat.pos_of_ne_zero fun none => ?_
  rw [repeated, none] at counted
  exact absurd counted (by decide)

/-- **The count of repeated samples is positive when there are some,** as long as the word does not
wrap around. -/
theorem repeated_pos_iff (small : f.options.maxAttempts < Nat.pow 2 31) :
    0 < f.repeated chooser ↔
      ∃ s ∈ f.derivations chooser f.options.maxAttempts, f.formula.holds s = true := by
  have few :
      (f.derivations chooser f.options.maxAttempts).countP f.formula.holds < Nat.pow 2 31 := by
    refine Nat.lt_of_le_of_lt List.countP_le_length ?_
    rwa [length_derivations]
  rw [← List.countP_pos_iff, repeated, Int32.lt_iff_toInt_lt, Int32.toInt_ofNat_of_lt few,
    Int32.toInt_zero]
  exact Int.natCast_pos

theorem sameTask_afterDerivations (chooser : Chooser ρ) (n : Nat) (f : Fuzzer ρ) :
    f.SameTask (f.afterDerivations chooser n) := by
  induction n generalizing f with
  | zero => exact .refl f
  | succ n ih => exact (SameTask.derive f startSymbol 0).trans (ih _)

@[simp] theorem seen_afterDerivations (n : Nat) (f : Fuzzer ρ) :
    (f.afterDerivations chooser n).seen = f.seen := by
  induction n generalizing f with
  | zero => rfl
  | succ n ih => exact ih _

/-- Where samples may repeat, all that satisfies the formula is accepted. -/
theorem accepts_iff_holds (repeatable : f.options.distinct = false) {t : Tree} :
    f.Accepts t ↔ f.formula.holds t = true := by
  simp [Accepts, repeatable]

/-- Some tree of a list is the first that is accepted, or none is. -/
theorem exists_firstAccepted_or (f : Fuzzer ρ) (drawn : List Tree) :
    (∃ earlier t, f.FirstAccepted drawn earlier t) ∨ ∀ s ∈ drawn, ¬ f.Accepts s := by
  cases found : drawn.find? fun s => decide (f.Accepts s) with
  | none => exact .inr (by simpa using found)
  | some t =>
    obtain ⟨taken, earlier, later, split, passed⟩ := List.find?_eq_some_iff_append.1 found
    exact .inl ⟨earlier, t, ⟨later, split⟩, by simpa using passed, by simpa using taken⟩

theorem seen_remember (distinct : f.options.distinct = true) (t : Tree) :
    (f.remember t).seen = t.render :: f.seen := by
  rw [remember, if_pos distinct]

@[simp] theorem draws_remember (f : Fuzzer ρ) (t : Tree) : (f.remember t).draws = f.draws := by
  unfold remember
  split <;> rfl

@[simp] theorem state_exhausted (f : Fuzzer ρ) (repeats : Int32) :
    (f.exhausted repeats).state = f := by
  unfold exhausted
  split <;> rfl

/-- A call that drew all its samples says that there is nothing new if the count of repeated ones is
positive, and that it failed otherwise. -/
theorem answer_exhausted (f : Fuzzer ρ) (repeats : Int32) :
    ∃ e, (f.exhausted repeats).answer = .error e ∧ (e = .exhausted ↔ 0 < repeats) ∧
      ((∃ reason, e = .failed reason) ↔ ¬ 0 < repeats) := by
  unfold exhausted
  split
  · next counted => exact ⟨_, rfl, by simp [counted], by simp [counted]⟩
  · next none =>
    exact ⟨_, rfl, by simp [none, SolverError.noSample], by simp [none, SolverError.noSample]⟩

/-- A tree that is accepted ends the call. -/
theorem solveWithin_of_accepts (unspent : f.expired? = none) (attempts : Nat) (repeats : Int32)
    (accepted : f.Accepts (f.derive chooser startSymbol 0).1) :
    solveWithin chooser (attempts + 1) repeats f =
      { answer := .ok (f.derive chooser startSymbol 0).1,
        state := (f.derive chooser startSymbol 0).2.remember (f.derive chooser startSymbol 0).1 } := by
  obtain ⟨fits, new⟩ := accepted
  have task : f.SameTask (f.derive chooser startSymbol 0).2 := .derive f startSymbol 0
  have seen : (f.derive chooser startSymbol 0).2.seen = f.seen := rfl
  rw [solveWithin, unspent]
  simp only [remember, task.formula, task.options, seen, fits]
  cases distinct : f.options.distinct with
  | false => simp
  | true => simp [new distinct]

/-- A tree that is not accepted is passed over, and counts as repeated if it satisfies the
formula. -/
theorem solveWithin_of_not_accepts (unspent : f.expired? = none) (attempts : Nat)
    (repeats : Int32) (refused : ¬ f.Accepts (f.derive chooser startSymbol 0).1) :
    solveWithin chooser (attempts + 1) repeats f =
      solveWithin chooser attempts
        (repeats + .ofNat (f.formula.holds (f.derive chooser startSymbol 0).1).toNat)
        (f.derive chooser startSymbol 0).2 := by
  have task : f.SameTask (f.derive chooser startSymbol 0).2 := .derive f startSymbol 0
  have seen : (f.derive chooser startSymbol 0).2.seen = f.seen := rfl
  rw [solveWithin, unspent]
  simp only [task.formula, task.options, seen]
  cases fits : f.formula.holds (f.derive chooser startSymbol 0).1 with
  | false =>
    have same : repeats + .ofNat false.toNat = repeats := Int32.add_zero repeats
    rw [same]
    simp
  | true =>
    obtain ⟨distinct, known⟩ : f.options.distinct = true ∧
        (f.derive chooser startSymbol 0).1.render ∈ f.seen := by
      simpa [Accepts, fits] using refused
    simp [distinct, known]

/-- **A call ends with the first of its derivations that is accepted.** -/
theorem solveWithin_of_first (unspent : f.expired? = none) {attempts : Nat}
    {earlier : List Tree} {t : Tree}
    (first : f.FirstAccepted (f.derivations chooser attempts) earlier t) (repeats : Int32) :
    solveWithin chooser attempts repeats f =
      { answer := .ok t,
        state := (f.afterDerivations chooser (earlier.length + 1)).remember t } := by
  obtain ⟨⟨later, drawn⟩, passed, taken⟩ := first
  -- on the trees that are passed over; each of them takes one attempt
  induction earlier generalizing attempts repeats f with
  | nil =>
    cases attempts with
    | zero => cases drawn
    | succ attempts =>
      obtain ⟨rfl, -⟩ := List.cons.inj drawn
      exact solveWithin_of_accepts unspent attempts repeats taken
  | cons s earlier ih =>
    cases attempts with
    | zero => cases drawn
    | succ attempts =>
      obtain ⟨rfl, rest⟩ := List.cons.inj drawn
      obtain ⟨refused, passed⟩ := List.forall_mem_cons.1 passed
      rw [solveWithin_of_not_accepts unspent attempts repeats refused]
      exact ih (f := (f.derive chooser startSymbol 0).2) unspent _ passed taken rest

/-- **A call that accepts none of its derivations makes all of them,** and those that satisfy the
formula are the repeated ones. -/
theorem solveWithin_of_none (unspent : f.expired? = none) {attempts : Nat}
    (passed : ∀ s ∈ f.derivations chooser attempts, ¬ f.Accepts s) (repeats : Int32) :
    solveWithin chooser attempts repeats f =
      (f.afterDerivations chooser attempts).exhausted
        (repeats + .ofNat ((f.derivations chooser attempts).countP f.formula.holds)) := by
  induction attempts generalizing repeats f with
  | zero => exact congrArg f.exhausted (Int32.add_zero repeats).symm
  | succ attempts ih =>
    obtain ⟨refused, passed⟩ := List.forall_mem_cons.1 passed
    have counted : (f.derivations chooser (attempts + 1)).countP f.formula.holds =
        (f.formula.holds (f.derive chooser startSymbol 0).1).toNat +
          ((f.derive chooser startSymbol 0).2.derivations chooser attempts).countP
            f.formula.holds := by
      rw [derivations, List.countP_cons]
      cases f.formula.holds (f.derive chooser startSymbol 0).1 with
      | true => exact Nat.add_comm _ 1
      | false => exact (Nat.zero_add _).symm
    rw [solveWithin_of_not_accepts unspent attempts repeats refused, counted, Int32.ofNat_add,
      ← Int32.add_assoc]
    exact ih (f := (f.derive chooser startSymbol 0).2) unspent passed _

section Unspent

variable (unspent : f.expired? = none)

include unspent

/-- The first derivation that is accepted decides what a call comes to. -/
theorem solve_of_first {earlier : List Tree} {t : Tree}
    (first : f.FirstAccepted (f.derivations chooser f.options.maxAttempts) earlier t) :
    f.solve chooser =
      { answer := .ok t,
        state := (f.afterDerivations chooser (earlier.length + 1)).remember t } :=
  solveWithin_of_first unspent first 0

/-- A call that accepts nothing goes by its count of repeated samples: there is nothing new, or
nothing at all. -/
theorem solve_of_none
    (passed : ∀ s ∈ f.derivations chooser f.options.maxAttempts, ¬ f.Accepts s) :
    ∃ e, (f.solve chooser).answer = .error e ∧
      (f.solve chooser).state = f.afterDerivations chooser f.options.maxAttempts ∧
      (e = .exhausted ↔ 0 < f.repeated chooser) ∧
      ((∃ reason, e = .failed reason) ↔ ¬ 0 < f.repeated chooser) := by
  obtain ⟨e, answer, nothingNew, nothing⟩ := answer_exhausted
    (f.afterDerivations chooser f.options.maxAttempts) (f.repeated chooser)
  have call := solveWithin_of_none unspent passed 0
  rw [Int32.zero_add, ← solve, ← repeated] at call
  exact ⟨e, by rw [call, answer], by rw [call, state_exhausted], nothingNew, nothing⟩

/-- **A call returns the first of its derivations that is accepted,** and a sample only if there
is one. -/
theorem solve_eq_ok_iff {t : Tree} :
    (f.solve chooser).answer = .ok t ↔
      ∃ earlier, f.FirstAccepted (f.derivations chooser f.options.maxAttempts) earlier t := by
  constructor
  · intro ok
    rcases exists_firstAccepted_or f (f.derivations chooser f.options.maxAttempts) with
      ⟨earlier, u, first⟩ | passed
    · rw [solve_of_first unspent first] at ok
      exact ⟨earlier, Except.ok.inj ok ▸ first⟩
    · obtain ⟨e, refused, -⟩ := solve_of_none unspent passed
      rw [refused] at ok
      cases ok
  · rintro ⟨earlier, first⟩
    rw [solve_of_first unspent first]

/-- **A call that refuses has accepted none of its derivations.** -/
theorem passed_of_solve_eq_error {e : SolverError} (refused : (f.solve chooser).answer = .error e) :
    ∀ s ∈ f.derivations chooser f.options.maxAttempts, ¬ f.Accepts s := by
  rcases exists_firstAccepted_or f (f.derivations chooser f.options.maxAttempts) with
    ⟨earlier, t, first⟩ | passed
  · rw [solve_of_first unspent first] at refused
    cases refused
  · exact passed

/-- **There is nothing new** when no derivation is accepted and some count as repeated. -/
theorem solve_eq_exhausted_iff :
    (f.solve chooser).answer = .error .exhausted ↔
      (∀ s ∈ f.derivations chooser f.options.maxAttempts, ¬ f.Accepts s) ∧
        0 < f.repeated chooser := by
  constructor
  · intro nothingNew
    have passed := passed_of_solve_eq_error unspent nothingNew
    obtain ⟨e, refused, -, counted, -⟩ := solve_of_none unspent passed
    rw [nothingNew] at refused
    exact ⟨passed, counted.1 (Except.error.inj refused).symm⟩
  · rintro ⟨passed, some⟩
    obtain ⟨e, refused, -, counted, -⟩ := solve_of_none unspent passed
    rw [refused, counted.2 some]

/-- **A call fails** when no derivation is accepted and none counts as repeated. -/
theorem solve_failed_iff :
    (∃ reason, (f.solve chooser).answer = .error (.failed reason)) ↔
      (∀ s ∈ f.derivations chooser f.options.maxAttempts, ¬ f.Accepts s) ∧
        ¬ 0 < f.repeated chooser := by
  constructor
  · rintro ⟨reason, failed⟩
    have passed := passed_of_solve_eq_error unspent failed
    obtain ⟨e, refused, -, -, uncounted⟩ := solve_of_none unspent passed
    rw [failed] at refused
    exact ⟨passed, uncounted.1 ⟨reason, (Except.error.inj refused).symm⟩⟩
  · rintro ⟨passed, none⟩
    obtain ⟨e, refused, -, -, uncounted⟩ := solve_of_none unspent passed
    obtain ⟨reason, rfl⟩ := uncounted.2 none
    exact ⟨reason, refused⟩

/-- **A call that makes few enough derivations fails** when none of them satisfies the formula. -/
theorem solve_failed_iff_of_small (small : f.options.maxAttempts < Nat.pow 2 31) :
    (∃ reason, (f.solve chooser).answer = .error (.failed reason)) ↔
      ∀ s ∈ f.derivations chooser f.options.maxAttempts, f.formula.holds s = false := by
  rw [solve_failed_iff unspent, repeated_pos_iff small]
  constructor
  · rintro ⟨-, violate⟩ s mem
    exact Bool.eq_false_iff.2 fun fits => violate ⟨s, mem, fits⟩
  · intro violate
    have unfit : ∀ s ∈ f.derivations chooser f.options.maxAttempts, ¬ f.formula.holds s = true :=
      fun s mem => Bool.eq_false_iff.1 (violate s mem)
    exact ⟨fun s mem accepted => unfit s mem accepted.1, fun ⟨s, mem, fits⟩ => unfit s mem fits⟩

end Unspent

/-- A call without time refuses, and leaves the fuzzer as it is. -/
theorem solve_of_expired (chooser : Chooser ρ) {e : SolverError} (spent : f.expired? = some e) :
    (∃ e', (f.solve chooser).answer = .error e') ∧ (f.solve chooser).state = f := by
  unfold solve
  cases f.options.maxAttempts with
  | zero =>
    obtain ⟨e', answer, -⟩ := answer_exhausted f 0
    exact ⟨⟨e', answer⟩, state_exhausted f 0⟩
  | succ attempts =>
    rw [solveWithin, spent]
    exact ⟨⟨e, rfl⟩, rfl⟩

end Fuzzer

end PreconditionMining
