/-
# Learning preconditions

A learning run makes attempts for one test.  Each attempt discovers samples,
adds them to those of the attempts before, and has the learner name candidates
from all of them.  The run ends with the first attempt that has candidates, with
a misuse of conditions, or when the attempts are used up; after its end it makes
no further attempt.  A learner that fails makes an attempt without candidates.
-/

import PreconditionMining.Suite.Session

namespace PreconditionMining

/-- One attempt of a learning run. -/
structure Attempt where
  /-- The number of the attempt, counted from 1. -/
  number : Nat
  /-- How many samples this attempt discovered. -/
  discovered : PoolSizes
  /-- How many samples there are with those of the attempts before. -/
  accumulated : PoolSizes
  stop : Stop
  candidates : List Candidate

/-- What was learned for one test. -/
structure TestResult where
  test : ObservedTest
  preconditions : List Formula
  attempts : Nat

/-- A learning run between two attempts. -/
structure LearningRun where
  test : ObservedTest
  maxRetries : Nat
  pools : Pools := .empty
  /-- How many attempts were made. -/
  made : Nat := 0
  finished : Bool := false

namespace LearningRun

variable {φ σ κ : Type}

/-- A run for a test with as many attempts as the settings allow. -/
def start (ctx : Context) (t : ObservedTest) : LearningRun :=
  { test := t, maxRetries := ctx.settings.maxLearnerRetries }

/-- The candidates for the pools of a run; none where the learner fails. -/
def candidates (c : Collaborators φ σ κ) (ctx : Context) (r : LearningRun) (s : Session φ κ) :
    Except ConditionError (List Candidate) × Session φ κ :=
  match s.learn c ctx r.test r.pools with
  | (.ok found, s) => (.ok found, s)
  | (.error (.oracle e), s) => (.error e, s)
  | (.error (.failed reason), s) => (.ok [], s.note (.learnerFailed reason))

/-- Makes an attempt. -/
def attempt (c : Collaborators φ σ κ) (ctx : Context) (r : LearningRun) (s : Session φ κ) :
    Except ConditionError Attempt × LearningRun × Session φ κ :=
  let r := { r with made := r.made + 1 }
  match s.discover c ctx r.test with
  | (.error e, s) => (.error e, r, s)
  | (.ok d, s) =>
    let r := { r with pools := r.pools ++ d.pools }
    match r.candidates c ctx s with
    | (.error e, s) => (.error e, r, s)
    | (.ok found, s) =>
      (.ok ⟨r.made, d.pools.sizes, r.pools.sizes, d.stop, found⟩, r,
        s.note (.attemptComplete r.made r.pools.sizes found.length))

/-- Whether a run ends with an attempt. -/
def ends : Except ConditionError Attempt → Bool
  | .ok a => !a.candidates.isEmpty
  | .error _ => true

/-- The next attempt of a run that has not ended. -/
def next (c : Collaborators φ σ κ) (ctx : Context) (r : LearningRun) (s : Session φ κ) :
    Option (Except ConditionError Attempt) × LearningRun × Session φ κ :=
  if r.finished || r.maxRetries ≤ r.made then (none, r, s)
  else
    let (item, r, s) := r.attempt c ctx s
    (some item, { r with finished := ends item }, s)

/-- The items of a run, at most a number of them. -/
def takeItems (c : Collaborators φ σ κ) (ctx : Context) :
    Nat → LearningRun → Session φ κ →
      List (Except ConditionError Attempt) × LearningRun × Session φ κ
  | 0, r, s => ([], r, s)
  | n + 1, r, s =>
    match r.next c ctx s with
    | (none, r, s) => ([], r, s)
    | (some item, r, s) =>
      let (items, r, s) := takeItems c ctx n r s
      (item :: items, r, s)

/-- All items of a run. -/
def items (c : Collaborators φ σ κ) (ctx : Context) (r : LearningRun) (s : Session φ κ) :
    List (Except ConditionError Attempt) × LearningRun × Session φ κ :=
  takeItems c ctx (r.maxRetries - r.made) r s

end LearningRun

namespace Session

variable {φ σ κ : Type}

/-- The last attempt of a run whose items are given, or its failure.  A run without items has
made no attempt and learned nothing. -/
def lastAttempt : List (Except ConditionError Attempt) → Nat × List Candidate →
    Except ConditionError (Nat × List Candidate)
  | [], last => .ok last
  | .error e :: _, _ => .error e
  | .ok a :: rest, _ => lastAttempt rest (a.number, a.candidates)

/-- Tells what was learned after a number of attempts. -/
def tellLearned (ctx : Context) (attempts : Nat) (learned : List Candidate) (s : Session φ κ) :
    Session φ κ :=
  let s := if 1 < attempts then s.note (.severalAttempts attempts) else s
  if learned.isEmpty then s.note (.noPreconditions attempts)
  else
    s.noteAll <| (learned.filter fun k => 0 < k.precision).map fun k =>
      .learned ctx.settings.verbose k.precision k.coverage k.formula.text

/-- **Learns preconditions for a test.** -/
def learnTest (c : Collaborators φ σ κ) (ctx : Context) (t : ObservedTest) (s : Session φ κ) :
    Except ConditionError TestResult × Session φ κ :=
  let s := (s.note (.enteringTest t.name t.condition.description)).note .learning
  let (items, _, s) := (LearningRun.start ctx t).items c ctx s
  match lastAttempt items (0, []) with
  | .error e => (.error e, s)
  | .ok (attempts, learned) =>
    (.ok ⟨t, learned.map (·.formula), attempts⟩, tellLearned ctx attempts learned s)

/-- Learns preconditions for tests one after another.  The results of the tests before a
failure are kept beside it. -/
def learnTests (c : Collaborators φ σ κ) (ctx : Context) :
    List ObservedTest → Session φ κ → List TestResult × Option ConditionError × Session φ κ
  | [], s => ([], none, s)
  | t :: ts, s =>
    match s.learnTest c ctx t with
    | (.error e, s) => ([], some e, s)
    | (.ok result, s) =>
      let (results, failure, s) := learnTests c ctx ts s
      (result :: results, failure, s)

end Session

end PreconditionMining
