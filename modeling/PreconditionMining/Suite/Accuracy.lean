/-
# Measuring preconditions

A precondition is measured on two streams of samples: the raw stream satisfies
the base formula, and the constrained stream satisfies the precondition as well.
The share of samples that trigger the condition is the precision of a stream.

Both streams are drawn to their full length before any sample is classified, and
where one cannot be drawn the precondition stays unmeasured.  Samples may repeat
within a stream, whatever the options of the test say.

Room for a stream is made when its solver is built, before the first sample is
drawn.  There is a most that one vector can have room for, and a longer stream
breaks the task off.  Beyond that the memory of the machine has no part in this.
-/

import PreconditionMining.Suite.Learning

namespace PreconditionMining

/-- A stream of samples, split by whether they trigger the condition. -/
structure StreamSplit where
  passing : List Tree
  failing : List Tree
deriving DecidableEq

namespace StreamSplit

/-- The number of samples. -/
def length (s : StreamSplit) : Nat := s.passing.length + s.failing.length

/-- The share of `passing` among `total`; of nothing it is 0. -/
def share (passing total : Nat) : Float :=
  if total = 0 then 0 else passing.toFloat / total.toFloat

/-- The share of samples that trigger the condition. -/
def precision (s : StreamSplit) : Float := share s.passing.length s.length

end StreamSplit

/-- The two streams of a measurement. -/
structure Measurement where
  raw : StreamSplit
  constrained : StreamSplit
deriving DecidableEq

/-- A precondition of a test, and its measurement if there is one. -/
structure AccuracyRecord where
  test : ObservedTest
  precondition : Formula
  measurement : Option Measurement

/-- Whether there is a measurement. -/
def AccuracyRecord.isMeasured (r : AccuracyRecord) : Bool := r.measurement.isSome

/-- Why a task has no result. -/
inductive Halt (ε : Type)
  /-- It fails for a cause that it reports. -/
  | failed (cause : ε)
  /-- It breaks off, because no vector has room for the samples that it is to draw. -/
  | capacityOverflow
deriving DecidableEq

/-- The same halt, for a cause in other terms. -/
def Halt.map {ε δ : Type} (f : ε → δ) : Halt ε → Halt δ
  | failed cause => failed (f cause)
  | capacityOverflow => capacityOverflow

/-- The most samples that a vector has room for: it may take 2⁶³ - 1 bytes, of which a sample takes
48. -/
def streamCapacity : Nat := 9223372036854775807 / 48

namespace Session

variable {φ σ κ : Type}

/-- Draws a number of samples, after some that have been drawn; none where the solver refuses
one. -/
def drawFrom (c : Collaborators φ σ κ) : Nat → Nat → σ → Session φ κ →
    Option (List Tree) × Session φ κ
  | 0, _, _, s => (some [], s)
  | n + 1, drawn, q, s =>
    let r := c.solver.solve q
    let s := s.noteAll r.events
    match r.answer with
    | .error e => (none, s.note (.evaluationStreamFailed e drawn))
    | .ok sample =>
      let (rest, s) := drawFrom c n (drawn + 1) r.state s
      (rest.map (sample :: ·), s)

/-- Draws a stream for a test under a formula, if there is room for it. -/
def drawStream (c : Collaborators φ σ κ) (ctx : Context) (count : Nat) (t : ObservedTest)
    (formula : Option Formula) (s : Session φ κ) :
    Except (Halt ConditionError) (Option (List Tree)) × Session φ κ :=
  match s.create c ctx formula { ctx.solverOptions t with distinct := false } with
  | (.error e, s) => (.ok none, s.note (.evaluationSolverMissing e))
  | (.ok q, s) =>
    if streamCapacity < count then (.error .capacityOverflow, s)
    else
      let (samples, s) := drawFrom c count 0 q s
      (.ok samples, s)

/-- Splits samples by their verdicts. -/
def split (ctx : Context) (t : ObservedTest) :
    List Tree → Session φ κ → Except ConditionError StreamSplit × Session φ κ
  | [], s => (.ok ⟨[], []⟩, s)
  | sample :: rest, s =>
    match s.classify ctx t sample with
    | (.error e, s) => (.error e, s)
    | (.ok triggered, s) =>
      match split ctx t rest s with
      | (.error e, s) => (.error e, s)
      | (.ok ⟨passing, failing⟩, s) =>
        (.ok (if triggered then ⟨sample :: passing, failing⟩ else ⟨passing, sample :: failing⟩), s)

/-- Classifies the samples of both streams. -/
def measureStreams (ctx : Context) (t : ObservedTest) (raw constrained : List Tree)
    (s : Session φ κ) : Except ConditionError Measurement × Session φ κ :=
  match split ctx t raw s with
  | (.error e, s) => (.error e, s)
  | (.ok raw, s) =>
    match split ctx t constrained s with
    | (.error e, s) => (.error e, s)
    | (.ok constrained, s) =>
      (.ok ⟨raw, constrained⟩, s.note (.measured raw.precision constrained.precision))

/-- **Measures a precondition of a test.** -/
def measure (c : Collaborators φ σ κ) (ctx : Context) (count : Nat) (t : ObservedTest)
    (precondition : Formula) (s : Session φ κ) :
    Except (Halt ConditionError) (Option Measurement) × Session φ κ :=
  let s := s.note (.measuring t.name precondition.text)
  match s.drawStream c ctx count t ctx.formula with
  | (.error halt, s) => (.error halt, s)
  | (.ok none, s) => (.ok none, s.note .rawStreamMissing)
  | (.ok (some raw), s) =>
    match s.drawStream c ctx count t (some (.constrain ctx.formula precondition)) with
    | (.error halt, s) => (.error halt, s)
    | (.ok none, s) => (.ok none, s.note .constrainedStreamMissing)
    | (.ok (some constrained), s) =>
      match measureStreams ctx t raw constrained s with
      | (.error e, s) => (.error (.failed e), s)
      | (.ok m, s) => (.ok (some m), s)

/-- Measures pairs of a test and a precondition. -/
def measureAll (c : Collaborators φ σ κ) (ctx : Context) (count : Nat) :
    List (ObservedTest × Formula) → Session φ κ →
      Except (Halt ConditionError) (List AccuracyRecord) × Session φ κ
  | [], s => (.ok [], s)
  | (t, f) :: rest, s =>
    match s.measure c ctx count t f with
    | (.error halt, s) => (.error halt, s)
    | (.ok m, s) =>
      match measureAll c ctx count rest s with
      | (.error halt, s) => (.error halt, s)
      | (.ok records, s) => (.ok (⟨t, f, m⟩ :: records), s)

end Session

/-- The pairs of a test and one of its preconditions, in the order of the results. -/
def TestResult.pairs (results : List TestResult) : List (ObservedTest × Formula) :=
  results.flatMap fun r => r.preconditions.map fun f => (r.test, f)

end PreconditionMining
